import LS8.Engine.Basic

set_option autoImplicit false

namespace LS8.Engine

variable {ε α : Type}

@[simp]
theorem run_onMachine (action : Action UInt8 Machine ε α) (engine : Engine) :
    (onMachine action).run engine =
      ⟨{ engine with machine := (action.run engine.machine).state },
        (action.run engine.machine).emitted.map .printed,
        (action.run engine.machine).result⟩ := rfl

theorem conclude_error {inst : Instruction} {flow : Flow} {engine : Engine}
    {failure : Failure Trap} (failed : engine.machine.retired inst flow = .error failure) :
    (conclude inst flow).run engine = ⟨engine, [], .error failure⟩ := by
  unfold conclude
  rw [Action.run_bind, run_onMachine, Machine.retire, Action.run_update_error failed]
  rfl

theorem conclude_next {inst : Instruction} {engine : Engine} {machine : Machine}
    (retired : engine.machine.retired inst .next = .ok machine) :
    (conclude inst .next).run engine =
      ⟨{ engine with
          machine := machine
          tally := engine.tally.record inst machine.stackDepth }, [], .ok .running⟩ := by
  unfold conclude
  rw [Action.run_bind, run_onMachine, Machine.retire, Action.run_update_ok retired]
  rfl

theorem conclude_halt {inst : Instruction} {engine : Engine} {machine : Machine}
    (retired : engine.machine.retired inst .halt = .ok machine) :
    (conclude inst .halt).run engine =
      ⟨{ engine with
          machine := machine
          tally := engine.tally.record inst machine.stackDepth
          state := .halted .hlt },
        [.event (.halted machine.pc (engine.tally.retired + 1))],
        .ok (.halted .hlt)⟩ := by
  unfold conclude
  rw [Action.run_bind, run_onMachine, Machine.retire, Action.run_update_ok retired]
  have counted := engine.tally.retired_record inst machine.stackDepth
  rw [← counted]
  rfl

theorem machine_of_conclude_running {inst : Instruction} {flow : Flow} {engine : Engine}
    (fallsThrough : flow = .next ∨ flow = .halt)
    (going : ((conclude inst flow).run engine).result = .ok .running) :
    ((conclude inst flow).run engine).state.machine =
      { engine.machine with pc := inst.pc + inst.width } := by
  cases retired : engine.machine.retired inst flow with
  | error failure => simp [conclude_error retired] at going
  | ok machine =>
      have moved := Machine.retired_eq_ok fallsThrough retired
      rcases fallsThrough with rfl | rfl
      · simp [conclude_next retired, moved]
      · simp [conclude_halt retired] at going

theorem step_error {engine : Engine} {trap : Trap}
    (failed : engine.machine.fetched = .error trap) :
    step.run engine = ⟨engine, [], .error (.raised trap)⟩ := by
  unfold step
  rw [Action.run_bind, run_onMachine, Machine.fetch]
  simp [failed]

theorem step_fetched {engine : Engine} {inst : Instruction}
    (fetched : engine.machine.fetched = .ok inst) :
    step.run engine =
      let done := (Machine.execute inst).run engine.machine
      let executed := { engine with machine := done.state }
      match done.result with
      | .error trap =>
          ⟨executed, .event (.execute inst) :: done.emitted.map .printed, .error (.raised trap)⟩
      | .ok flow =>
          let concluded := (conclude inst flow).run executed
          ⟨concluded.state,
            .event (.execute inst) :: done.emitted.map .printed ++ concluded.emitted,
            concluded.result⟩ := by
  unfold step
  rw [Action.run_bind, run_onMachine, Machine.fetch]
  simp only [fetched, Action.run_bind, Action.run_inspect, Action.run_mapError, liftM, monadLift,
    MonadLift.monadLift, Action.ok_mapError, run_onMachine, Action.run_emit]
  cases ((Machine.execute inst).run engine.machine).result <;> rfl

theorem pc_lt_of_step_running {engine : Engine}
    (going : (step.run engine).result = .ok .running) :
    engine.machine.pc < (step.run engine).state.machine.pc ∧
      (step.run engine).state.machine.programEnd = engine.machine.programEnd := by
  cases fetched : engine.machine.fetched with
  | error trap => simp [step_error fetched] at going
  | ok inst =>
      have sameFrame := Machine.frame_execute inst engine.machine
      have noJump := Machine.execute_yields_no_jump inst engine.machine
      rw [step_fetched fetched] at going ⊢
      generalize (Machine.execute inst).run engine.machine = done at sameFrame noJump going ⊢
      obtain ⟨executed, emitted, result⟩ := done
      cases result with
      | error trap => cases going
      | ok flow =>
          have moved := machine_of_conclude_running (noJump flow rfl) going
          have here := (Instruction.lookup_of_decode fetched).2
          have ahead := inst.width_pos
          simp only [moved]
          exact ⟨by omega, congrArg Machine.Frame.programEnd sameFrame⟩

theorem trace_off {engine : Engine} (quiet : engine.tracing = false) :
    trace.run engine = ⟨engine, [], .ok ()⟩ := by
  simp [trace, Action.run_bind, quiet]

theorem trace_on {engine : Engine} {snapshot : Snapshot} (traced : engine.tracing = true)
    (taken : Snapshot.capture engine.machine = .ok snapshot) :
    trace.run engine = ⟨engine, [.snapshot snapshot], .ok ()⟩ := by
  simp [trace, Action.run_bind, traced, taken]

theorem state_trace (engine : Engine) : (trace.run engine).state = engine := by
  cases traced : engine.tracing with
  | false => simp [trace_off traced]
  | true =>
      cases taken : Snapshot.capture engine.machine with
      | ok snapshot => simp [trace_on traced taken]
      | error defect => simp [trace, Action.run_bind, traced, taken]

theorem tick_halted {engine : Engine} {reason : HaltReason}
    (stopped : engine.state = .halted reason) :
    tick.run engine = ⟨engine, [], .ok (.halted reason)⟩ := by
  simp [tick, Action.run_bind, stopped]

theorem tick_at_end {engine : Engine} (running : engine.state = .running)
    (ended : engine.machine.programEnd ≤ engine.machine.pc) :
    tick.run engine =
      ⟨{ engine with state := .halted .endOfProgram },
        [.event (.endOfProgram engine.machine.pc)], .ok (.halted .endOfProgram)⟩ := by
  simp [tick, Action.run_bind, running, ended, halt]

theorem tick_running {engine : Engine} (running : engine.state = .running)
    (inside : engine.machine.pc < engine.machine.programEnd) :
    tick.run engine = (do trace; step.recover (stepFailed engine.machine.pc)).run engine := by
  simp [tick, Action.run_bind, running, Nat.not_le.mpr inside]

theorem pc_lt_of_tick_running {engine : Engine}
    (going : (tick.run engine).result = .ok .running) :
    engine.machine.pc < engine.machine.programEnd ∧
      engine.machine.pc < (tick.run engine).state.machine.pc ∧
      (tick.run engine).state.machine.programEnd = engine.machine.programEnd := by
  cases running : engine.state with
  | halted reason => simp [tick_halted running] at going
  | running =>
      by_cases inside : engine.machine.pc < engine.machine.programEnd
      · rw [tick_running running inside] at going ⊢
        obtain ⟨-, -, going, reached⟩ := Action.ok_of_bind_ok going
        rw [state_trace] at going reached
        rw [reached]
        rw [Action.run_recover] at going ⊢
        cases stepped : (step.run engine).result with
        | ok state =>
            simp only [stepped] at going ⊢
            rw [Except.ok.inj going] at stepped
            exact ⟨inside, pc_lt_of_step_running stepped⟩
        | error failure =>
            simp only [stepped] at going
            cases failure <;> simp [stepFailed, halt, Action.run_bind] at going
      · simp [tick_at_end running (Nat.not_lt.mp inside)] at going

end LS8.Engine
