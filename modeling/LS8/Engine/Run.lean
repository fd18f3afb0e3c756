import LS8.Engine.Step

set_option autoImplicit false

namespace LS8.Engine

def remaining (engine : Engine) : Nat :=
  engine.machine.programEnd - engine.machine.pc

theorem remaining_lt_of_tick_running {engine : Engine}
    (going : (tick.run engine).result = .ok .running) :
    (tick.run engine).state.remaining < engine.remaining := by
  have ⟨inside, ahead, sameEnd⟩ := pc_lt_of_tick_running going
  simp only [remaining, sameEnd]
  omega

def run : EngineAction (Failure Fault) HaltReason := fun engine =>
  let ticked := tick.run engine
  match going : ticked.result with
  | .error failure => ⟨ticked.state, ticked.emitted, .error failure⟩
  | .ok (.halted reason) => ⟨ticked.state, ticked.emitted, .ok reason⟩
  | .ok .running =>
      have _ : ticked.state.remaining < engine.remaining := remaining_lt_of_tick_running going
      let rest := run ticked.state
      ⟨rest.state, ticked.emitted ++ rest.emitted, rest.result⟩
  termination_by engine => engine.remaining

theorem run_error {engine : Engine} {failure : Failure Fault}
    (failed : (tick.run engine).result = .error failure) :
    run.run engine = ⟨(tick.run engine).state, (tick.run engine).emitted, .error failure⟩ := by
  rw [Action.run, run]
  split <;> simp_all

theorem run_halted {engine : Engine} {reason : HaltReason}
    (stopped : (tick.run engine).result = .ok (.halted reason)) :
    run.run engine = ⟨(tick.run engine).state, (tick.run engine).emitted, .ok reason⟩ := by
  rw [Action.run, run]
  split <;> simp_all

theorem run_running {engine : Engine} (going : (tick.run engine).result = .ok .running) :
    run.run engine =
      ⟨(run.run (tick.run engine).state).state,
        (tick.run engine).emitted ++ (run.run (tick.run engine).state).emitted,
        (run.run (tick.run engine).state).result⟩ := by
  rw [Action.run, run]
  split
  · simp_all
  · simp_all
  · rfl

end LS8.Engine
