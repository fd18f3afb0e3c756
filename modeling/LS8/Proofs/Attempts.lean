import LS8.Proofs.Stepping

set_option autoImplicit false

namespace LS8.Engine

def afterTicks (count : Nat) (engine : Engine) : Engine :=
  (trail count engine).engine

theorem afterTicks_succ (count : Nat) (engine : Engine) :
    engine.afterTicks (count + 1) = (tick.run (engine.afterTicks count)).state := by
  rw [afterTicks, trail_add]
  rfl

@[simp]
theorem tracing_afterTicks (count : Nat) (engine : Engine) :
    (engine.afterTicks count).tracing = engine.tracing := by
  induction count with
  | zero => rfl
  | succ count ih => rw [afterTicks_succ, tracing_tick, ih]

def Attempting (engine : Engine) : Prop :=
  engine.state = .running ∧ engine.machine.pc < engine.machine.programEnd

def attempt (engine : Engine) : List Emission :=
  engine.opening ++ (printedValues (tick.run engine).emitted).map .printed

def attempts (count : Nat) (engine : Engine) : List Emission :=
  (List.range count).flatMap fun index => (engine.afterTicks index).attempt

def failures {α : Type} : Except (Failure Fault) α → Nat
  | .error _ => 1
  | .ok _ => 0

def ending? (done : Outcome Emission Engine (Failure Fault) HaltReason) : Option Event :=
  match done.result with
  | .ok .hlt => some (.halted done.state.machine.pc done.state.tally.retired)
  | .ok .endOfProgram => some (.endOfProgram done.state.machine.pc)
  | .error (.raised fault) => some (.fatalTrap fault.pc fault.trap)
  | .ok .faulted | .error (.defect _) => none

@[simp]
theorem attempts_zero (engine : Engine) : engine.attempts 0 = [] := rfl

theorem attempts_succ (count : Nat) (engine : Engine) :
    engine.attempts (count + 1) = engine.attempt ++ (tick.run engine).state.attempts count := by
  simp only [attempts, List.range_succ_eq_map, List.flatMap_cons, List.flatMap_map]
  rfl

theorem attempt_trapped {engine : Engine} {trap : Trap} (running : engine.state = .running)
    (inside : engine.machine.pc < engine.machine.programEnd)
    (failed : engine.machine.transition = .error trap) : engine.attempt = engine.opening := by
  simp [attempt, tick_trapped running inside failed]

theorem attempt_retired {engine : Engine} {done : Retirement} (running : engine.state = .running)
    (inside : engine.machine.pc < engine.machine.programEnd)
    (completed : engine.machine.transition = .ok done) :
    engine.attempt = engine.opening ++ done.printed.map .printed := by
  simp [attempt, tick_retired running inside completed]

theorem attempting_of_tick_running {engine : Engine}
    (going : (tick.run engine).result = .ok .running) :
    engine.Attempting ∧ (tick.run engine).emitted = engine.attempt := by
  have seen := ticked engine
  generalize same : tick.run engine = outcome at seen going ⊢
  cases seen with
  | halted reason stopped => cases going
  | ended running past => cases going
  | trapped trap running inside failed => cases going
  | retired done running inside completed =>
      refine ⟨⟨running, inside⟩, ?_⟩
      have next : done.inst.flow = .next := by
        rcases done.inst.flow_eq with flow | flow
        · exact flow
        · simp [Retirement.state, flow] at going
      simp [attempt_retired running inside completed, closing, next]

theorem tick_running_of_state {engine : Engine}
    (running : (tick.run engine).state.state = .running) :
    (tick.run engine).result = .ok .running := by
  rcases ticked : (tick.run engine).result with failure | (_ | reason)
  · rw [faulted_of_tick ticked] at running
    cases running
  · rfl
  · rw [halted_of_tick ticked] at running
    cases running

theorem pc_lt_of_attempting {engine : Engine} {count : Nat}
    (attempting : ∀ index < count, (engine.afterTicks index).Attempting) {first second : Nat}
    (order : first < second) (inside : second < count) :
    (engine.afterTicks first).machine.pc < (engine.afterTicks second).machine.pc := by
  have next (index : Nat) (more : index + 1 < count) :
      (engine.afterTicks index).machine.pc < (engine.afterTicks (index + 1)).machine.pc := by
    have running := (attempting _ more).1
    rw [afterTicks_succ] at running ⊢
    exact (pc_lt_of_tick_running (tick_running_of_state running)).2.1
  induction order with
  | refl => exact next _ inside
  | step before ih => exact Nat.lt_trans (ih (Nat.lt_of_succ_lt inside)) (next _ inside)

structure Recorded (engine : Engine) (retired : Nat) (ending : Event)
    (done : Outcome Emission Engine (Failure Fault) HaltReason) : Prop where
  attempting : ∀ index < retired + failures done.result, (engine.afterTicks index).Attempting
  stopped : ¬(engine.afterTicks (retired + failures done.result)).Attempting
  fetched : ∀ index < retired, ∃ inst, (engine.afterTicks index).machine.fetched = .ok inst
  tally : done.state.tally.retired = engine.tally.retired + retired
  emitted : done.emitted = engine.attempts (retired + failures done.result) ++ [.event ending]
  ending : ending? done = some ending
  faulted : ∀ failure, done.result = .error failure →
    done.state.machine = (engine.afterTicks retired).machine

theorem not_attempting_of_concluded {engine : Engine}
    {result : Except (Failure Fault) HaltReason}
    (final : concluded? (tick.run engine).result = some result) :
    ¬(tick.run engine).state.Attempting := by
  rintro ⟨running, -⟩
  rw [tick_running_of_state running] at final
  cases final

theorem attempting_first {engine : Engine} (here : engine.Attempting) :
    ∀ index < 1, (engine.afterTicks index).Attempting := by
  intro index first
  obtain rfl := Nat.lt_one_iff.mp first
  exact here

theorem recorded_ended {engine : Engine}
    (past : engine.machine.programEnd ≤ engine.machine.pc) :
    Recorded engine 0 (.endOfProgram engine.machine.pc)
      ⟨{ engine with state := .halted .endOfProgram }, [.event (.endOfProgram engine.machine.pc)],
        .ok .endOfProgram⟩ where
  attempting index before := absurd before (Nat.not_lt_zero index)
  stopped attempting := Nat.not_lt.mpr past attempting.2
  fetched index before := absurd before (Nat.not_lt_zero index)
  tally := rfl
  emitted := rfl
  ending := rfl
  faulted failure failed := by cases failed

theorem recorded_trapped {engine : Engine} {trap : Trap} (here : engine.Attempting)
    (stops : ¬(engine.afterTicks 1).Attempting)
    (failed : engine.machine.transition = .error trap) :
    Recorded engine 0 (.fatalTrap engine.machine.pc trap)
      ⟨{ engine with state := .halted .faulted },
        engine.opening ++ [.event (.fatalTrap engine.machine.pc trap)],
        .error (.raised ⟨engine.machine.pc, trap⟩)⟩ where
  attempting := attempting_first here
  stopped := stops
  fetched index before := absurd before (Nat.not_lt_zero index)
  tally := rfl
  emitted := by simp [failures, attempts_succ, attempt_trapped here.1 here.2 failed]
  ending := rfl
  faulted _ _ := rfl

theorem recorded_halted {engine : Engine} {done : Retirement} (here : engine.Attempting)
    (stops : ¬(engine.afterTicks 1).Attempting)
    (completed : engine.machine.transition = .ok done) (halts : done.inst.flow = .halt) :
    Recorded engine 1 (.halted done.machine.pc (engine.tally.retired + 1))
      ⟨engine.retire done, engine.opening ++ done.printed.map .printed ++ engine.closing done,
        .ok .hlt⟩ := by
  have counted : (engine.retire done).tally.retired = engine.tally.retired + 1 :=
    Tally.retired_record ..
  refine ⟨attempting_first here, stops, ?_, counted, ?_, ?_, fun _ failed => by cases failed⟩
  · intro index first
    obtain rfl := Nat.lt_one_iff.mp first
    exact ⟨done.inst, (Machine.transition_eq_ok completed).1⟩
  · simp [failures, attempts_succ, attempt_retired here.1 here.2 completed, closing, halts]
  · simp only [ending?, counted]
    rfl

theorem recorded_last {engine : Engine} {result : Except (Failure Fault) HaltReason}
    (running : engine.state = .running)
    (final : concluded? (tick.run engine).result = some result) :
    ∃ retired ending,
      Recorded engine retired ending
        ⟨(tick.run engine).state, (tick.run engine).emitted, result⟩ := by
  have seen := ticked engine
  have stops : ¬(engine.afterTicks 1).Attempting := not_attempting_of_concluded final
  generalize tick.run engine = outcome at seen final ⊢
  cases seen with
  | halted reason stopped => simp [running] at stopped
  | ended _ past =>
      cases final
      exact ⟨0, _, recorded_ended past⟩
  | trapped trap _ inside failed =>
      cases final
      exact ⟨0, _, recorded_trapped ⟨running, inside⟩ stops failed⟩
  | retired done _ inside completed =>
      have halts : done.inst.flow = .halt := by
        rcases done.inst.flow_eq with flow | flow
        · simp [Retirement.state, flow, concluded?] at final
        · exact flow
      have state : done.state = .halted .hlt := by rw [Retirement.state, halts]
      rw [state] at final
      cases final
      exact ⟨1, _, recorded_halted ⟨running, inside⟩ stops completed halts⟩

theorem Recorded.next {engine : Engine} {retired : Nat} {ending : Event}
    (going : (tick.run engine).result = .ok .running)
    (recorded : Recorded (tick.run engine).state retired ending
      (run.run (tick.run engine).state)) :
    Recorded engine (retired + 1) ending (run.run engine) := by
  obtain ⟨here, emitted⟩ := attempting_of_tick_running going
  obtain ⟨done, completed, reached, -⟩ := retired_of_tick_running going
  have counted : (tick.run engine).state.tally.retired = engine.tally.retired + 1 := by
    rw [reached]
    exact Tally.retired_record ..
  rw [run_running going]
  refine ⟨?_, ?_, ?_, ?_, ?_, recorded.ending, recorded.faulted⟩
  · intro index inside
    cases index with
    | zero => exact here
    | succ index => exact recorded.attempting index (by simp only at inside; omega)
  · rw [Nat.add_right_comm retired 1]
    exact recorded.stopped
  · intro index inside
    cases index with
    | zero => exact ⟨done.inst, (Machine.transition_eq_ok completed).1⟩
    | succ index => exact recorded.fetched index (Nat.lt_of_succ_lt_succ inside)
  · simp only [recorded.tally, counted]
    omega
  · simp only [recorded.emitted, emitted, Nat.add_right_comm retired 1, attempts_succ,
      List.append_assoc]

theorem exists_recorded (engine : Engine) (running : engine.state = .running) :
    ∃ retired ending, Recorded engine retired ending (run.run engine) := by
  induction engine using run_induction with
  | last engine result final =>
      rw [run_concluded final]
      exact recorded_last running final
  | next engine going ih =>
      obtain ⟨retired, ending, recorded⟩ := ih (state_of_tick_running going)
      exact ⟨retired + 1, ending, recorded.next going⟩

theorem recorded_run (engine : Engine) (running : engine.state = .running) :
    ∃ ending,
      Recorded engine ((run.run engine).state.tally.retired - engine.tally.retired) ending
        (run.run engine) := by
  obtain ⟨retired, ending, recorded⟩ := exists_recorded engine running
  refine ⟨ending, ?_⟩
  rw [recorded.tally, Nat.add_sub_cancel_left]
  exact recorded

theorem Recorded.tally_le {engine : Engine} {retired : Nat} {ending : Event}
    {done : Outcome Emission Engine (Failure Fault) HaltReason}
    (recorded : Recorded engine retired ending done) :
    engine.tally.retired ≤ done.state.tally.retired := by
  rw [recorded.tally]
  exact Nat.le_add_right ..

end LS8.Engine
