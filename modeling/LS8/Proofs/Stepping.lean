import LS8.Proofs.Faults
import LS8.Proofs.Runs

set_option autoImplicit false

namespace LS8.Engine

theorem trail_add (first second : Nat) (engine : Engine) :
    trail (first + second) engine =
      ⟨(trail second (trail first engine).engine).engine,
        (trail first engine).emitted ++ (trail second (trail first engine).engine).emitted,
        (trail first engine).results ++ (trail second (trail first engine).engine).results⟩ := by
  induction first generalizing engine with
  | zero => simp [trail]
  | succ first ih => simp [Nat.add_right_comm first 1, trail, ih]

theorem length_results_trail (count : Nat) (engine : Engine) :
    (trail count engine).results.length = count := by
  induction count generalizing engine with
  | zero => rfl
  | succ count ih => simp [trail, ih]

theorem trail_of_halted {engine : Engine} {reason : HaltReason}
    (halted : engine.state = .halted reason) (count : Nat) :
    trail count engine = ⟨engine, [], List.replicate count (.ok (.halted reason))⟩ := by
  induction count with
  | zero => rfl
  | succ count ih => simp [trail, tick_halted halted, ih, List.replicate_succ]

theorem trail_past_halt {engine : Engine} {reached count : Nat} {reason : HaltReason}
    (more : reached ≤ count) (halted : (trail reached engine).engine.state = .halted reason) :
    trail count engine =
      ⟨(trail reached engine).engine, (trail reached engine).emitted,
        (trail reached engine).results ++
          List.replicate (count - reached) (.ok (.halted reason))⟩ := by
  obtain ⟨later, rfl⟩ := Nat.exists_eq_add_of_le more
  rw [trail_add, trail_of_halted halted, Nat.add_sub_cancel_left]
  simp

theorem halted_of_tick {engine : Engine} {reason : HaltReason}
    (stopped : (tick.run engine).result = .ok (.halted reason)) :
    (tick.run engine).state.state = .halted reason := by
  have seen := ticked engine
  generalize tick.run engine = outcome at seen stopped ⊢
  cases seen with
  | halted reason halted => exact halted.trans (Except.ok.inj stopped)
  | ended running past => exact Except.ok.inj stopped
  | trapped trap running inside failed => cases stopped
  | retired done running inside completed => exact Except.ok.inj stopped

theorem faulted_of_tick {engine : Engine} {failure : Failure Fault}
    (failed : (tick.run engine).result = .error failure) :
    (tick.run engine).state.state = .halted .faulted := by
  obtain ⟨trap, -, reached, -⟩ := failure_of_tick failed
  rw [reached]

/--
A run that goes on after some ticks, against the run without them. A fault that one of the ticks
has reported already is no failure of the run that goes on.
-/
structure Resumes (reports : List (Except (Failure Fault) RunState)) (emitted : List Emission)
    (whole rest : Outcome Emission Engine (Failure Fault) HaltReason) : Prop where
  state : rest.state = whole.state
  emitted : emitted ++ rest.emitted = whole.emitted
  unreported : (∀ failure, .error failure ∉ reports) → rest.result = whole.result
  reported : ∀ failure, .error failure ∈ reports →
    whole.result = .error failure ∧ rest.result = .ok .faulted

theorem Resumes.trans {reports reports' : List (Except (Failure Fault) RunState)}
    {emitted emitted' : List Emission}
    {whole middle rest : Outcome Emission Engine (Failure Fault) HaltReason}
    (first : Resumes reports emitted whole middle)
    (second : Resumes reports' emitted' middle rest) :
    Resumes (reports ++ reports') (emitted ++ emitted') whole rest where
  state := second.state.trans first.state
  emitted := by rw [List.append_assoc, second.emitted, first.emitted]
  unreported := by
    intro none
    have before := first.unreported fun failure member =>
      none failure (List.mem_append_left _ member)
    have after := second.unreported fun failure member =>
      none failure (List.mem_append_right _ member)
    exact after.trans before
  reported := by
    intro failure member
    by_cases early : ∃ cause, .error cause ∈ reports
    · -- The fault came with the first ticks, so the later ones have none to report.
      obtain ⟨cause, early⟩ := early
      obtain ⟨failed, resumed⟩ := first.reported cause early
      have none (late : Failure Fault) : .error late ∉ reports' := by
        intro reported
        have again := (second.reported late reported).1
        rw [resumed] at again
        cases again
      have here := (List.mem_append.mp member).resolve_right (none failure)
      exact ⟨(first.reported failure here).1, (second.unreported none).trans resumed⟩
    · have none := not_exists.mp early
      have late := (List.mem_append.mp member).resolve_left (none failure)
      obtain ⟨failed, resumed⟩ := second.reported failure late
      exact ⟨(first.unreported none).symm.trans failed, resumed⟩

theorem resumes_tick (engine : Engine) :
    Resumes [(tick.run engine).result] (tick.run engine).emitted (run.run engine)
      (run.run (tick.run engine).state) := by
  cases ticked : (tick.run engine).result with
  | error failure =>
      rw [run_error ticked, run_of_halted (faulted_of_tick ticked)]
      constructor <;> simp
  | ok state =>
      cases state with
      | halted reason =>
          rw [run_halted ticked, run_of_halted (halted_of_tick ticked)]
          constructor <;> simp
      | running =>
          rw [run_running ticked]
          constructor <;> simp

theorem resumes_trail (count : Nat) (engine : Engine) :
    Resumes (trail count engine).results (trail count engine).emitted (run.run engine)
      (run.run (trail count engine).engine) := by
  induction count generalizing engine with
  | zero => constructor <;> simp [trail]
  | succ count ih => exact (resumes_tick engine).trans (ih (tick.run engine).state)

theorem not_failed_past_halt {engine : Engine} {reason : HaltReason}
    (halted : engine.state = .halted reason) (count : Nat) (failure : Failure Fault) :
    .error failure ∉ (trail count engine).results := by
  rw [trail_of_halted halted]
  simp

theorem results_around_failure {count : Nat} {engine : Engine} {failure : Failure Fault}
    {earlier later : List (Except (Failure Fault) RunState)}
    (split : (trail count engine).results = earlier ++ .error failure :: later) :
    (∀ result ∈ earlier, result = .ok .running) ∧
      (∀ result ∈ later, result = .ok (.halted .faulted)) ∧
      (trail (earlier.length + 1) engine).engine.state = .halted .faulted := by
  induction earlier generalizing count engine with
  | nil =>
      cases count with
      | zero => cases split
      | succ count =>
          obtain ⟨failed, rest⟩ := List.cons_eq_cons.mp split
          have halted := faulted_of_tick failed
          rw [trail_of_halted halted] at rest
          refine ⟨nofun, ?_, halted⟩
          intro result member
          rw [← rest] at member
          exact List.eq_of_mem_replicate member
  | cons first earlier ih =>
      cases count with
      | zero => cases split
      | succ count =>
          obtain ⟨here, rest⟩ := List.cons_eq_cons.mp split
          obtain ⟨running, idle, halted⟩ := ih rest
          have member : .error failure ∈ (trail count (tick.run engine).state).results := by
            simp [rest]
          have going : (tick.run engine).result = .ok .running := by
            rcases result : (tick.run engine).result with cause | (_ | reason)
            · exact absurd member (not_failed_past_halt (faulted_of_tick result) _ _)
            · rfl
            · exact absurd member (not_failed_past_halt (halted_of_tick result) _ _)
          refine ⟨?_, idle, halted⟩
          exact List.forall_mem_cons.mpr ⟨here.symm.trans going, running⟩

theorem ticks_then_run (engine : Engine) (count : Nat) :
    let ticks := trail count engine
    let rest := run.run ticks.engine
    let whole := run.run engine
    rest.state = whole.state ∧
    ticks.emitted ++ rest.emitted = whole.emitted ∧
    (∀ failure, whole.result = .error failure → .error failure ∈ ticks.results →
      rest.result = .ok .faulted) ∧
    ((∀ failure, whole.result = .error failure → .error failure ∉ ticks.results) →
      rest.result = whole.result) ∧
    (∀ (failure : Failure Fault) (earlier later : List (Except (Failure Fault) RunState)),
      ticks.results = earlier ++ .error failure :: later →
        (∀ result ∈ earlier, result = .ok .running) ∧
        (∀ result ∈ later, result = .ok (.halted .faulted)) ∧
        ticks.engine = (trail (earlier.length + 1) engine).engine ∧
        ticks.emitted = (trail (earlier.length + 1) engine).emitted) ∧
    (∀ reached ≤ count, ∀ reason, (trail reached engine).engine.state = .halted reason →
      ticks = ⟨(trail reached engine).engine, (trail reached engine).emitted,
        (trail reached engine).results ++
          List.replicate (count - reached) (.ok (.halted reason))⟩) := by
  intro ticks rest whole
  have resumes : Resumes ticks.results ticks.emitted whole rest := resumes_trail count engine
  refine ⟨resumes.state, resumes.emitted, ?_, ?_, ?_, ?_⟩
  · intro failure _ returned
    exact (resumes.reported failure returned).2
  · intro unreturned
    apply resumes.unreported
    intro failure returned
    exact unreturned failure (resumes.reported failure returned).1 returned
  · intro failure earlier later split
    obtain ⟨running, idle, halted⟩ := results_around_failure split
    have counted : earlier.length + 1 ≤ count := by
      rw [← length_results_trail count engine, split]
      simp
    have same : ticks = _ := trail_past_halt counted halted
    rw [same]
    exact ⟨running, idle, rfl, rfl⟩
  · intro reached more reason halted
    exact trail_past_halt more halted

-- The second of three ticks returns the fault, so the run after them says that it has faulted.
theorem ticks_then_run_past_underflow :
    let engine := ((load [0x47, 0, 0x46, 0]).run (.ofSettings {})).state
    let fault : Failure Fault := .raised ⟨2, .stackUnderflow⟩
    (run.run engine).result = .error fault ∧
    (trail 3 engine).results = [.ok .running, .error fault, .ok (.halted .faulted)] ∧
    (trail 2 engine).engine.state = .halted .faulted ∧
    (run.run (trail 3 engine).engine).result = .ok .faulted ∧
    (run.run (trail 1 engine).engine).result = .error fault ∧
    (trail 3 engine).emitted = (trail 2 engine).emitted := by
  intro engine fault
  have results : (trail 3 engine).results =
      [.ok .running, .error fault, .ok (.halted .faulted)] := by decide +kernel
  have first : (trail 1 engine).results = [.ok .running] := by decide +kernel
  have faulted : (trail 2 engine).engine.state = .halted .faulted := by decide +kernel
  have whole : (run.run engine).result = .error fault := by
    obtain ⟨resumed, -⟩ := (resumes_trail 3 engine).reported fault (by simp [results])
    exact resumed
  obtain ⟨-, -, reported, -, -, idle⟩ := ticks_then_run engine 3
  obtain ⟨-, -, -, unreported, -, -⟩ := ticks_then_run engine 1
  refine ⟨whole, results, faulted, ?_, ?_, ?_⟩
  · exact reported fault whole (by simp [results])
  · rw [unreported (by simp [first]), whole]
  · rw [idle 2 (by decide) .faulted faulted]

end LS8.Engine
