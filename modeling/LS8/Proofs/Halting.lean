import LS8.Proofs.Decoding
import LS8.Proofs.Sessions

set_option autoImplicit false

namespace LS8

def Reply.fault? : Reply → Option Fault
  | .faulted fault => some fault
  | _ => none

def lastFault (turns : List Turn) : Option Fault :=
  (turns.filterMap fun turn => turn.reply.fault?).getLast?

theorem lastFault_cons (turn : Turn) (rest : List Turn) :
    lastFault (turn :: rest) = (lastFault rest).or turn.reply.fault? := by
  simp only [lastFault, List.filterMap_cons]
  cases turn.reply.fault? with
  | none => simp
  | some fault => simp [List.getLast?_cons]

namespace Machine

-- A HLT writes nothing, so it is still in memory when it has been retired.
theorem halt_before_pc {machine : Machine} {done : Retirement}
    (completed : machine.transition = .ok done) (halts : done.inst.flow = .halt) :
    done.machine.pc = machine.pc + 1 ∧
      done.machine.memory.byte? machine.pc = some Mnemonic.hlt.opcode := by
  obtain ⟨fetched, effect, reached, moved, -⟩ := transition_eq_ok completed
  obtain ⟨mnemonic, a, b, same⟩ := Instruction.eq_of_decode fetched
  have opcode := (Instruction.decode_eq_ok fetched).1
  rw [same] at halts reached opcode moved
  cases mnemonic with
  | hlt =>
      cases reached
      rw [moved]
      exact ⟨rfl, opcode⟩
  | _ => cases halts

end Machine

namespace Engine

/--
The reason for which an engine halted holds of its machine. Where it is a fault, that is the one
that was reported last.
-/
structure Truthful (reported : Option Fault) (engine : Engine) : Prop where
  hlt : engine.state = .halted .hlt →
    1 ≤ engine.machine.pc ∧
      engine.machine.memory.byte? (engine.machine.pc - 1) = some Mnemonic.hlt.opcode
  endOfProgram : engine.state = .halted .endOfProgram →
    engine.machine.programEnd ≤ engine.machine.pc
  faulted : engine.state = .halted .faulted →
    engine.machine.pc < engine.machine.programEnd ∧
      ∃ trap, reported = some ⟨engine.machine.pc, trap⟩ ∧
        engine.machine.transition = .error trap

variable {reported : Option Fault} {engine : Engine}

theorem truthful_running (running : engine.state = .running) : Truthful reported engine := by
  constructor <;> simp [running]

def fault? {α : Type} : Except (Failure Fault) α → Option Fault
  | .error (.raised fault) => some fault
  | _ => none

theorem Truthful.tick (truthful : Truthful reported engine) :
    Truthful ((fault? (tick.run engine).result).or reported) (tick.run engine).state := by
  have seen := ticked engine
  generalize Engine.tick.run engine = outcome at seen ⊢
  cases seen with
  | halted reason stopped => exact truthful
  | ended running past => exact ⟨nofun, fun _ => past, nofun⟩
  | trapped trap running inside failed =>
      exact ⟨nofun, nofun, fun _ => ⟨inside, trap, rfl, failed⟩⟩
  | retired done running inside completed =>
      rcases done.inst.flow_eq with next | halt
      · apply truthful_running
        simp [retire, Retirement.state, next]
      · have state : (engine.retire done).state = .halted .hlt := by
          simp [retire, Retirement.state, halt]
        obtain ⟨moved, opcode⟩ := Machine.halt_before_pc completed halt
        constructor
        · intro _
          simp only [retire, moved, Nat.add_sub_cancel]
          exact ⟨Nat.le_add_left 1 _, opcode⟩
        · simp [state]
        · simp [state]

theorem fault?_of_concluded {last : Except (Failure Fault) RunState}
    {result : Except (Failure Fault) HaltReason} (final : concluded? last = some result) :
    fault? result = fault? last := by
  unfold concluded? at final
  split at final
  · cases final
  · cases final
    rfl
  next failure =>
    cases final
    cases failure <;> rfl

theorem Truthful.run (truthful : Truthful reported engine) :
    Truthful ((fault? (run.run engine).result).or reported) (run.run engine).state := by
  induction engine using run_induction with
  | last engine result final =>
      rw [run_concluded final]
      have ticked := truthful.tick
      rwa [← fault?_of_concluded final] at ticked
  | next engine going ih =>
      rw [run_running going]
      -- A tick that leaves the engine running has reported no fault.
      have ticked := truthful.tick
      rw [going] at ticked
      exact ih ticked

theorem reply_fault?_answer {α : Type} (action : EngineAction (Failure Fault) α)
    {succeeded : α → Reply} (quiet : ∀ value, (succeeded value).fault? = none) (engine : Engine) :
    (Operation.answer action succeeded (Operation.failed .faulted) engine).reply.fault? =
      fault? (action.run engine).result := by
  simp only [Operation.answer]
  cases (action.run engine).result with
  | ok value => exact quiet value
  | error failure => cases failure <;> rfl

theorem Truthful.perform (truthful : Truthful reported engine) {operation : Operation}
    (control : operation.IsControl) :
    Truthful ((operation.perform engine).reply.fault?.or reported)
      (operation.perform engine).engine := by
  cases control with
  | load image =>
      -- A load that is refused reports a trap, but no fault of the program.
      by_cases fits : image.length ≤ memorySize
      · rw [Operation.perform_load fits]
        exact truthful_running rfl
      · rw [Operation.perform_load_error (Nat.lt_of_not_le fits)]
        exact truthful
  | tick =>
      rw [Operation.perform, reply_fault?_answer _ fun _ => rfl, Operation.engine_answer]
      exact truthful.tick
  | run =>
      rw [Operation.perform, reply_fault?_answer _ fun _ => rfl, Operation.engine_answer]
      exact truthful.run
  | reset => exact truthful_running rfl
  | setTracing on => exact { truthful with }

theorem Truthful.after {operations : List Operation}
    (control : ∀ operation ∈ operations, operation.IsControl)
    (truthful : Truthful reported engine) :
    Truthful ((lastFault (turns operations engine)).or reported) (engine.after operations) := by
  induction operations generalizing reported engine with
  | nil => exact truthful
  | cons operation rest ih =>
      have here := truthful.perform (control operation (List.mem_cons_self ..))
      have later := ih (fun next member => control next (List.mem_cons_of_mem _ member)) here
      rwa [turns, lastFault_cons, Option.or_assoc, after]

theorem running_iff_of_halted {reason : HaltReason} (halted : engine.state = .halted reason)
    (operation : Operation) :
    (operation.perform engine).engine.state = .running ↔
      operation = .reset ∨
        ∃ image, operation = .load image ∧ (operation.perform engine).reply = .done := by
  by_cases control : operation.IsControl
  · cases control with
    | load image =>
        by_cases fits : image.length ≤ memorySize
        · simp [Operation.perform_load fits, loaded]
        · simp [Operation.perform_load_error (Nat.lt_of_not_le fits), halted]
    | tick => simp [Operation.perform, tick_halted halted, halted]
    | run => simp [Operation.perform, run_of_halted halted, halted]
    | reset => simp [Operation.perform_reset, cleared]
    | setTracing on => simp [Operation.perform, setTracing, halted]
  · rw [Operation.state_perform control, halted]
    simp only [reduceCtorEq, false_iff, not_or, not_exists]
    constructor
    · rintro rfl
      exact control .reset
    · rintro image ⟨rfl, -⟩
      exact control (.load image)

theorem perform_execute_of_trapped {trap : Trap}
    (trapped : engine.machine.transition = .error trap) :
    (Operation.execute none).perform engine = ⟨engine, [], .trapped trap⟩ := by
  have executed : (do
        let inst ← Operation.instructionOf none
        Machine.execute inst : MachineAction Flow).run engine.machine =
      ⟨engine.machine, [], .error trap⟩ := by
    simp only [Operation.instructionOf, Machine.fetch, Action.run_bind, Action.run_inspect]
    cases fetched : engine.machine.fetched with
    | error cause =>
        rw [Machine.transition_of_not_fetched fetched] at trapped
        cases trapped
        rfl
    | ok inst =>
        rw [Machine.transition_of_fetched fetched] at trapped
        cases reached : Machine.effect inst engine.machine with
        | ok effect => simp [reached] at trapped
        | error cause =>
            simp only [reached, error_map, Except.error.injEq] at trapped
            subst trapped
            simp [Machine.run_execute, reached, Machine.settled]
  simp only [Operation.perform, Operation.onMachine, Operation.answer, run_onMachine, executed,
    List.map_nil]

theorem halt_reason_holds_for_good :
    (∀ (settings : Settings) (operations : List Operation),
      (∀ operation ∈ operations, operation.IsControl) →
        let engine := (ofSettings settings).after operations
        (engine.state = .halted .hlt →
          1 ≤ engine.machine.pc ∧
            engine.machine.memory.byte? (engine.machine.pc - 1) = some Mnemonic.hlt.opcode) ∧
        (engine.state = .halted .endOfProgram →
          engine.machine.programEnd ≤ engine.machine.pc) ∧
        (engine.state = .halted .faulted →
          engine.machine.pc < engine.machine.programEnd ∧
            ∃ fault, lastFault (turns operations (ofSettings settings)) = some fault ∧
              fault.pc = engine.machine.pc ∧
              (Operation.execute none).perform engine = ⟨engine, [], .trapped fault.trap⟩)) ∧
    (∀ (engine : Engine) (reason : HaltReason), engine.state = .halted reason →
      tick.run engine = ⟨engine, [], .ok (.halted reason)⟩ ∧
      run.run engine = ⟨engine, [], .ok reason⟩ ∧
      ∀ operation : Operation,
        (operation.perform engine).engine.state = .running ↔
          operation = .reset ∨
            ∃ image, operation = .load image ∧ (operation.perform engine).reply = .done) := by
  constructor
  · intro settings operations control engine
    have new : Truthful none (ofSettings settings) := truthful_running rfl
    have truthful := new.after control
    rw [Option.or_none] at truthful
    refine ⟨truthful.hlt, truthful.endOfProgram, ?_⟩
    intro faulted
    obtain ⟨inside, trap, reported, failed⟩ := truthful.faulted faulted
    exact ⟨inside, _, reported, rfl, perform_execute_of_trapped failed⟩
  · intro engine reason halted
    exact ⟨tick_halted halted, run_of_halted halted, running_iff_of_halted halted⟩

-- A push in memory writes a HLT over the instruction that comes next, and a POP underflows.
theorem halt_reason_holds_of_rewritten_code_and_underflow :
    let settings : Settings := { placement := .ram, stackTop := 6 }
    let rewritten := (ofSettings settings).after [.load [0x82, 0, 1, 0x45, 0, 0x47, 0], .run]
    let operations := [.load [0x46, 0], .run, .load (List.replicate 257 0), .tick]
    let underflown := (ofSettings {}).after operations
    rewritten.state = .halted .hlt ∧
    rewritten.machine.memory.byte? (rewritten.machine.pc - 1) = some Mnemonic.hlt.opcode ∧
    underflown.state = .halted .faulted ∧
    (∃ fault, lastFault (turns operations (ofSettings {})) = some fault ∧
      fault.pc = underflown.machine.pc ∧
      (Operation.execute none).perform underflown = ⟨underflown, [], .trapped fault.trap⟩) ∧
    tick.run underflown = ⟨underflown, [], .ok (.halted .faulted)⟩ := by
  intro settings rewritten operations underflown
  have halted : rewritten.state = .halted .hlt := by decide +kernel
  have faulted : underflown.state = .halted .faulted := by decide +kernel
  obtain ⟨holds, final⟩ := halt_reason_holds_for_good
  have control : ∀ operation ∈ operations, operation.IsControl := by
    simp only [operations, List.forall_mem_cons]
    exact ⟨.load _, .run, .load _, .tick, nofun⟩
  obtain ⟨hlt, -, -⟩ := holds settings [.load [0x82, 0, 1, 0x45, 0, 0x47, 0], .run] (by
    simp only [List.forall_mem_cons]
    exact ⟨.load _, .run, nofun⟩)
  obtain ⟨-, -, fault⟩ := holds {} operations control
  rw [show (ofSettings {}).after operations = underflown from rfl] at fault
  exact ⟨halted, (hlt halted).2, faulted, (fault faulted).2, (final underflown _ faulted).1⟩

end Engine

end LS8
