import LS8.Proofs.Transition

set_option autoImplicit false

namespace LS8

theorem Machine.frame_transition {machine : Machine} {done : Retirement}
    (completed : machine.transition = .ok done) :
    done.machine.frame = { machine.frame with pc := machine.pc + done.inst.width } := by
  obtain ⟨-, effect, reached, moved, -⟩ := transition_eq_ok completed
  have kept := frame_effect reached
  rw [moved]
  exact congrArg (fun frame : Frame => { frame with pc := machine.pc + done.inst.width }) kept

theorem Machine.pc_transition {machine : Machine} {done : Retirement}
    (completed : machine.transition = .ok done) :
    done.machine.pc = machine.pc + done.inst.width :=
  congrArg Frame.pc (frame_transition completed)

namespace Engine

structure Trail where
  engine : Engine
  emitted : List Emission
  results : List (Except (Failure Fault) RunState)

def trail : Nat → Engine → Trail
  | 0, engine => ⟨engine, [], []⟩
  | count + 1, engine =>
      let ticked := tick.run engine
      let rest := trail count ticked.state
      ⟨rest.engine, ticked.emitted ++ rest.emitted, ticked.result :: rest.results⟩

def concluded? : Except (Failure Fault) RunState → Option (Except (Failure Fault) HaltReason)
  | .ok .running => none
  | .ok (.halted reason) => some (.ok reason)
  | .error failure => some (.error failure)

theorem run_concluded {engine : Engine} {result : Except (Failure Fault) HaltReason}
    (last : concluded? (tick.run engine).result = some result) :
    run.run engine = ⟨(tick.run engine).state, (tick.run engine).emitted, result⟩ := by
  cases ticked : (tick.run engine).result with
  | error failure =>
      rw [ticked] at last
      cases last
      exact run_error ticked
  | ok state =>
      rw [ticked] at last
      cases state with
      | running => cases last
      | halted reason =>
          cases last
          exact run_halted ticked

theorem run_of_halted {engine : Engine} {reason : HaltReason}
    (halted : engine.state = .halted reason) : run.run engine = ⟨engine, [], .ok reason⟩ := by
  have ticked := tick_halted halted
  rw [run_halted (by rw [ticked]), ticked]

theorem run_induction {motive : Engine → Prop}
    (last : ∀ engine result, concluded? (tick.run engine).result = some result → motive engine)
    (next : ∀ engine, (tick.run engine).result = .ok .running →
      motive (tick.run engine).state → motive engine)
    (engine : Engine) : motive engine := by
  -- The way that is left gets shorter with every tick that leaves the engine running.
  induction left : engine.remaining using Nat.strongRecOn generalizing engine with
  | ind way ih =>
      cases result : (tick.run engine).result with
      | error failure => exact last engine (.error failure) (by rw [result, concluded?])
      | ok state =>
          cases state with
          | halted reason => exact last engine (.ok reason) (by rw [result, concluded?])
          | running =>
              have shorter := remaining_lt_of_tick_running result
              exact next engine result (ih _ (left ▸ shorter) _ rfl)

theorem retired_of_tick_running {engine : Engine}
    (going : (tick.run engine).result = .ok .running) :
    ∃ done, engine.machine.transition = .ok done ∧
      (tick.run engine).state = engine.retire done ∧ done.state = .running := by
  have seen := ticked engine
  generalize tick.run engine = outcome at seen going ⊢
  cases seen with
  | halted reason stopped => cases going
  | ended running past => cases going
  | trapped trap running inside failed => cases going
  | retired done running inside completed => exact ⟨done, completed, rfl, Except.ok.inj going⟩

theorem fetched_of_tick_running {engine : Engine}
    (going : (tick.run engine).result = .ok .running) :
    ∃ inst, engine.machine.fetched = .ok inst ∧
      (tick.run engine).state.machine.pc = engine.machine.pc + inst.width := by
  obtain ⟨done, completed, reached, -⟩ := retired_of_tick_running going
  rw [reached]
  exact ⟨done.inst, (Machine.transition_eq_ok completed).1, Machine.pc_transition completed⟩

theorem state_of_tick_running {engine : Engine}
    (going : (tick.run engine).result = .ok .running) :
    (tick.run engine).state.state = .running := by
  obtain ⟨done, -, reached, still⟩ := retired_of_tick_running going
  rw [reached]
  exact still

theorem tracing_tick : tick.Keeps Engine.tracing := by
  intro engine
  have seen := ticked engine
  generalize tick.run engine = outcome at seen ⊢
  cases seen <;> rfl

theorem invariant_run {motive : Engine → Prop}
    (step : ∀ engine, motive engine → motive (tick.run engine).state) {engine : Engine}
    (holds : motive engine) : motive (run.run engine).state := by
  induction engine using run_induction with
  | last engine result final =>
      rw [run_concluded final]
      exact step engine holds
  | next engine going ih =>
      rw [run_running going]
      exact ih (step engine holds)

theorem concluded?_mapError (rename : Failure Fault → Failure Fault)
    (last : Except (Failure Fault) RunState) :
    concluded? (last.mapError rename) =
      (concluded? last).map fun result => result.mapError rename := by
  rcases last with failure | (_ | reason) <;> rfl

structure Parallel {α : Type} (related : Engine → Engine → Prop)
    (alike : List Emission → List Emission → Prop) (rename : Failure Fault → Failure Fault)
    (left right : Outcome Emission Engine (Failure Fault) α) : Prop where
  engine : related left.state right.state
  emitted : alike left.emitted right.emitted
  result : right.result = left.result.mapError rename

theorem parallel_run {related : Engine → Engine → Prop}
    {alike : List Emission → List Emission → Prop} {rename : Failure Fault → Failure Fault}
    (append : ∀ {first first' second second'}, alike first first' → alike second second' →
      alike (first ++ second) (first' ++ second'))
    (step : ∀ {left right}, related left right →
      Parallel related alike rename (tick.run left) (tick.run right))
    {left right : Engine} (start : related left right) :
    Parallel related alike rename (run.run left) (run.run right) := by
  -- The run on the left decides when both end.
  induction left using run_induction generalizing right with
  | last left result final =>
      have ticked := step start
      have final' : concluded? (tick.run right).result = some (result.mapError rename) := by
        rw [ticked.result, concluded?_mapError, final]
        rfl
      rw [run_concluded final, run_concluded final']
      exact { ticked with result := rfl }
  | next left going ih =>
      have ticked := step start
      have going' : (tick.run right).result = .ok .running := by
        rw [ticked.result, going]
        rfl
      have later := ih ticked.engine
      rw [run_running going, run_running going']
      exact ⟨later.engine, append ticked.emitted later.emitted, later.result⟩

theorem run_eq_trail (engine : Engine) :
    ∃ count ≤ engine.remaining, ∃ last,
      (trail (count + 1) engine).results = List.replicate count (.ok .running) ++ [last] ∧
      concluded? last = some (run.run engine).result ∧
      (run.run engine).state = (trail (count + 1) engine).engine ∧
      (run.run engine).emitted = (trail (count + 1) engine).emitted := by
  induction engine using run_induction with
  | last engine result final =>
      refine ⟨0, Nat.zero_le _, (tick.run engine).result, ?_⟩
      simp [trail, run_concluded final, final]
  | next engine going ih =>
      obtain ⟨count, few, last, results, final, state, emitted⟩ := ih
      have shorter := remaining_lt_of_tick_running going
      refine ⟨count + 1, by omega, last, ?_⟩
      rw [run_running going, trail]
      refine ⟨?_, final, state, ?_⟩
      · simp [going, results, List.replicate_succ]
      · exact congrArg ((tick.run engine).emitted ++ ·) emitted

theorem retired_add_remaining_of_tick (engine : Engine) :
    (tick.run engine).state.tally.retired + (tick.run engine).state.remaining ≤
      engine.tally.retired + engine.remaining := by
  have seen := ticked engine
  generalize tick.run engine = outcome at seen ⊢
  cases seen with
  | halted reason stopped => exact Nat.le_refl _
  | ended running past => exact Nat.le_refl _
  | trapped trap running inside failed => exact Nat.le_refl _
  | retired done running inside completed =>
      have moved := Machine.pc_transition completed
      have sameEnd : done.machine.programEnd = engine.machine.programEnd :=
        congrArg Machine.Frame.programEnd (Machine.frame_transition completed)
      have ahead := done.inst.width_pos
      simp only [retire, remaining, Tally.retired_record, moved, sameEnd]
      omega

theorem retired_add_remaining_of_trail (count : Nat) (engine : Engine) :
    (trail count engine).engine.tally.retired + (trail count engine).engine.remaining ≤
      engine.tally.retired + engine.remaining := by
  induction count generalizing engine with
  | zero => exact Nat.le_refl _
  | succ count ih => exact Nat.le_trans (ih _) (retired_add_remaining_of_tick engine)

theorem defect_of_tick_free (engine : Engine) (defect : Defect) :
    (tick.run engine).result ≠ .error (.defect defect) := by
  have seen := ticked engine
  generalize tick.run engine = outcome at seen ⊢
  cases seen <;> simp

theorem mem_results_of_trail {count : Nat} {engine : Engine}
    {result : Except (Failure Fault) RunState}
    (member : result ∈ (trail count engine).results) :
    ∃ reached, result = (tick.run reached).result := by
  induction count generalizing engine with
  | zero => cases member
  | succ count ih =>
      rcases List.mem_cons.mp member with here | later
      · exact ⟨engine, here⟩
      · exact ih later

theorem run_terminates (engine : Engine) :
    (∃ count ≤ engine.remaining, ∃ last,
      (trail (count + 1) engine).results = List.replicate count (.ok .running) ++ [last] ∧
      concluded? last = some (run.run engine).result ∧
      (run.run engine).state = (trail (count + 1) engine).engine ∧
      (run.run engine).emitted = (trail (count + 1) engine).emitted) ∧
    (∀ defect, (run.run engine).result ≠ .error (.defect defect)) ∧
    (run.run engine).state.tally.retired ≤ engine.tally.retired + engine.remaining ∧
    ((tick.run engine).result = .ok .running →
      engine.machine.pc < (tick.run engine).state.machine.pc ∧
      (tick.run engine).state.machine.programEnd = engine.machine.programEnd) := by
  obtain ⟨count, few, last, results, final, state, emitted⟩ := run_eq_trail engine
  refine ⟨⟨count, few, last, results, final, state, emitted⟩, ?_, ?_, ?_⟩
  · intro defect broken
    have member : last ∈ (trail (count + 1) engine).results := by simp [results]
    obtain ⟨reached, same⟩ := mem_results_of_trail member
    rw [broken] at final
    have failed : last = .error (.defect defect) := by
      rcases last with failure | (_ | reason) <;> simp_all [concluded?]
    exact defect_of_tick_free reached defect (same.symm.trans failed)
  · have bound := retired_add_remaining_of_trail (count + 1) engine
    rw [state]
    omega
  · intro going
    exact (pc_lt_of_tick_running going).2

-- With its stack right above it in memory, this program pushes a HLT over the PRN that comes next.
theorem run_terminates_on_rewritten_code :
    let image : List UInt8 := [0x82, 0, 1, 0x45, 0, 0x47, 0]
    let settings : Settings := { placement := .ram, stackTop := 6 }
    let engine := (trail 1 ((load image).run (.ofSettings settings)).state).engine
    (tick.run engine).result = .ok .running ∧
    (tick.run engine).state.machine.memory.byte? 5 = some 1 ∧
    engine.machine.pc < (tick.run engine).state.machine.pc ∧
    (run.run engine).state.tally.retired ≤ engine.tally.retired + 4 := by
  intro image settings engine
  have going : (tick.run engine).result = .ok .running := by decide +kernel
  have way : engine.remaining = 4 := by decide +kernel
  obtain ⟨-, -, few, moves⟩ := run_terminates engine
  rw [way] at few
  exact ⟨going, by decide +kernel, (moves going).1, few⟩

end Engine

end LS8
