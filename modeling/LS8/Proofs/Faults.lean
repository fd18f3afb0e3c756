import LS8.Proofs.Transition

set_option autoImplicit false

namespace LS8.Engine

theorem failure_of_tick {engine : Engine} {failure : Failure Fault}
    (failed : (tick.run engine).result = .error failure) :
    ∃ trap, failure = .raised ⟨engine.machine.pc, trap⟩ ∧
      (tick.run engine).state = { engine with state := .halted .faulted } ∧
      (tick.run engine).emitted =
        engine.opening ++ [.event (.fatalTrap engine.machine.pc trap)] := by
  have seen := ticked engine
  generalize tick.run engine = outcome at seen failed ⊢
  cases seen with
  | halted reason stopped => cases failed
  | ended running past => cases failed
  | trapped trap running inside raised =>
      cases failed
      exact ⟨trap, rfl, rfl, rfl⟩
  | retired done running inside completed => cases failed

end LS8.Engine

namespace LS8

theorem Machine.trap_of_execute {inst : Instruction} {machine : Machine} {trap : Trap}
    (failed : ((execute inst).run machine).result = .error trap) :
    (execute inst).run machine = ⟨machine, [], .error trap⟩ := by
  rw [run_execute] at failed ⊢
  cases reached : effect inst machine with
  | ok effect => simp [reached, settled] at failed
  | error cause =>
      simp only [reached, settled, Except.error.injEq] at failed ⊢
      rw [failed]

theorem execution_all_or_nothing :
    (∀ (engine : Engine) (failure : Failure Fault),
      (Engine.tick.run engine).result = .error failure →
        (∃ trap, failure = .raised ⟨engine.machine.pc, trap⟩) ∧
        (Engine.tick.run engine).state = { engine with state := .halted .faulted } ∧
        printedValues (Engine.tick.run engine).emitted = [] ∧
        snapshots (Engine.tick.run engine).emitted =
          if engine.tracing then [Snapshot.ofMachine engine.machine] else []) ∧
    (∀ (inst : Instruction) (machine : Machine) (trap : Trap),
      ((Machine.execute inst).run machine).result = .error trap →
        ((Machine.execute inst).run machine).state = machine ∧
        ((Machine.execute inst).run machine).emitted = []) := by
  constructor
  · intro engine failure failed
    obtain ⟨trap, raised, halted, emitted⟩ := Engine.failure_of_tick failed
    refine ⟨⟨trap, raised⟩, halted, ?_, ?_⟩
    · rw [emitted]
      simp
    · rw [emitted]
      simp
  · intro inst machine trap failed
    rw [Machine.trap_of_execute failed]
    exact ⟨rfl, rfl⟩

-- POP finds nothing to pop in a traced run, and the arithmetic unit does not know LDI.
theorem empty_pop_and_misplaced_load_change_nothing :
    let engine := ((Engine.load [0x46, 0]).run (.ofSettings { traceInstructions := true })).state
    let inst : Instruction := ⟨0, ⟨0x82, .ldi, 2, .arithmetic⟩, 0, 1⟩
    (Engine.tick.run engine).result = .error (.raised ⟨0, .stackUnderflow⟩) ∧
    (Engine.tick.run engine).state = { engine with state := .halted .faulted } ∧
    snapshots (Engine.tick.run engine).emitted = [.ofMachine engine.machine] ∧
    ((Machine.execute inst).run engine.machine).result =
      .error (.unsupportedOperation .ldi .arithmetic) ∧
    ((Machine.execute inst).run engine.machine).state = engine.machine := by
  intro engine inst
  have underflow : (Engine.tick.run engine).result = .error (.raised ⟨0, .stackUnderflow⟩) := by
    decide +kernel
  have unsupported : ((Machine.execute inst).run engine.machine).result =
      .error (.unsupportedOperation .ldi .arithmetic) := by
    decide +kernel
  obtain ⟨-, halted, -, shown⟩ := execution_all_or_nothing.1 engine _ underflow
  have kept := (execution_all_or_nothing.2 inst engine.machine _ unsupported).1
  exact ⟨underflow, halted, shown, unsupported, kept⟩

end LS8
