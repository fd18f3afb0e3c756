import LS8.Proofs.Decoding
import LS8.Proofs.Loading
import LS8.Proofs.Runs

set_option autoImplicit false

namespace LS8

inductive Statement
  | hlt
  | ldi (target value : UInt8)
  | prn (source : UInt8)
  | mul (target other : UInt8)
  | push (source : UInt8)
  | pop (target : UInt8)
  deriving DecidableEq, Repr

structure Reference where
  registers : Vector UInt8 8
  stack : List UInt8
  printed : List UInt8 := []
  deriving DecidableEq, Repr

namespace Statement

def mnemonic : Statement → Mnemonic
  | .hlt => .hlt
  | .ldi .. => .ldi
  | .prn _ => .prn
  | .mul .. => .mul
  | .push _ => .push
  | .pop _ => .pop

def operands : Statement → List UInt8
  | .hlt => []
  | .ldi target value => [target, value]
  | .mul target other => [target, other]
  | .prn operand | .push operand | .pop operand => [operand]

def encode (statement : Statement) : List UInt8 :=
  statement.mnemonic.opcode :: statement.operands

def width (statement : Statement) : Nat :=
  1 + statement.operands.length

@[simp]
theorem length_encode (statement : Statement) : statement.encode.length = statement.width := by
  simp [encode, width, Nat.add_comm]

def named (operand : UInt8) : Except Trap (Fin 8) :=
  if inside : operand.toNat < 8 then
    .ok ⟨operand.toNat, inside⟩
  else
    .error (.outOfRange (.register operand.toNat))

def meaning : Statement → Reference → Except Trap Reference
  | .hlt, reference => .ok reference
  | .ldi target value, reference => do
      let target ← named target
      return { reference with registers := reference.registers.set target value }
  | .prn source, reference => do
      let source ← named source
      return { reference with printed := reference.printed ++ [reference.registers[source]] }
  | .mul target other, reference => do
      let target ← named target
      let other ← named other
      let product := reference.registers[target].toNat * reference.registers[other].toNat % 256
      return { reference with registers := reference.registers.set target (.ofNat product) }
  | .push source, reference => do
      let source ← named source
      return { reference with stack := reference.registers[source] :: reference.stack }
  | .pop target, reference => do
      let target ← named target
      match reference.stack with
      | [] => throw .stackUnderflow
      | value :: rest =>
          return { reference with registers := reference.registers.set target value, stack := rest }

def instruction (statement : Statement) (pc : Nat) : Instruction :=
  ⟨pc, statement.mnemonic.descriptor, statement.operands.getD 0 0, statement.operands.getD 1 0⟩

def retirement (statement : Statement) (machine : Machine) (after : Reference) : Retirement where
  inst := statement.instruction machine.pc
  machine :=
    { machine with
      registers := ⟨after.registers⟩
      stack := after.stack
      pc := machine.pc + statement.width }
  printed := after.printed

theorem operandCount_eq (statement : Statement) :
    statement.mnemonic.descriptor.operandCount = statement.operands.length := by
  rw [Mnemonic.operandCount_descriptor]
  cases statement <;> rfl

@[simp]
theorem width_instruction (statement : Statement) (pc : Nat) :
    (statement.instruction pc).width = statement.width :=
  congrArg (1 + ·) statement.operandCount_eq

@[simp]
theorem pc_instruction (statement : Statement) (pc : Nat) :
    (statement.instruction pc).pc = pc := rfl

@[simp]
theorem encode_instruction (statement : Statement) (pc : Nat) :
    (statement.instruction pc).encode = statement.encode := by
  simp only [instruction, Instruction.encode, Instruction.operands, operandCount_eq]
  cases statement <;> rfl

theorem decode_encode {source : ByteSource} {pc : Nat} (statement : Statement)
    (here : ∀ offset < statement.width, source (pc + offset) = statement.encode[offset]?) :
    Instruction.decode source pc = .ok (statement.instruction pc) := by
  have unused (slot : Nat)
      (few : (statement.instruction pc).descriptor.operandCount < slot + 1) :
      statement.operands.getD slot 0 = 0 := by
    have short : statement.operands.length ≤ slot :=
      statement.operandCount_eq ▸ Nat.lt_succ_iff.mp few
    simp [List.getElem?_eq_none short]
  apply Instruction.decode_of_encode statement.mnemonic.descriptor_mem ⟨unused 0, unused 1⟩
  rw [width_instruction, encode_instruction]
  exact here

theorem state_retirement {machine : Machine} {after : Reference} (statement : Statement)
    (goesOn : statement ≠ .hlt) : (statement.retirement machine after).state = .running := by
  cases statement with
  | hlt => exact absurd rfl goesOn
  | ldi | prn | mul | push | pop => rfl

theorem meaning_printed (statement : Statement) (registers : Vector UInt8 8)
    (stack before : List UInt8) :
    statement.meaning ⟨registers, stack, before⟩ =
      (statement.meaning ⟨registers, stack, []⟩).map fun after =>
        { after with printed := before ++ after.printed } := by
  cases statement with
  | hlt => simp [meaning]
  | ldi target value | prn target | push target =>
      cases found : named target <;> simp [meaning, found]
  | mul target other =>
      cases found : named target <;> cases found' : named other <;> simp [meaning, found, found']
  | pop target =>
      cases found : named target <;> cases stack <;> simp [meaning, found]

theorem ofNat_product (left right : UInt8) :
    UInt8.ofNat (left.toNat * right.toNat % 256) = left * right := by
  apply UInt8.toNat.inj
  simp

theorem effect_eq_meaning {machine : Machine} (placed : machine.placement = .growable)
    (statement : Statement) (pc : Nat) :
    machine.effect (statement.instruction pc) =
      (statement.meaning ⟨machine.registers.cells, machine.stack, []⟩).map fun after =>
        ⟨{ machine with registers := ⟨after.registers⟩, stack := after.stack }, after.printed⟩ := by
  have checked (operand : UInt8) : Registers.checkedIndex operand.toNat = named operand := rfl
  rw [instruction, Machine.effect_of_descriptor]
  cases statement with
  | hlt => rfl
  | ldi target value | prn target =>
      simp only [mnemonic, operands, List.getD_cons_zero, Mnemonic.effect, checked, meaning]
      cases named target <;> rfl
  | push source =>
      simp only [mnemonic, operands, List.getD_cons_zero, Mnemonic.effect, checked, meaning,
        Machine.pushed_growable placed]
      cases named source <;> rfl
  | mul target other =>
      simp only [mnemonic, operands, List.getD_cons_zero, List.getD_cons_succ, Mnemonic.effect,
        checked, meaning]
      cases named target with
      | error trap => rfl
      | ok index =>
          cases named other with
          | error trap => rfl
          | ok index' =>
              simp only [ok_bind, pure_eq_ok, ofNat_product]
              rfl
  | pop target =>
      simp only [mnemonic, operands, List.getD_cons_zero, Mnemonic.effect, checked, meaning,
        Machine.popped_growable placed]
      cases named target with
      | error trap => rfl
      | ok index => cases machine.stack <;> rfl

end Statement

structure Progress where
  reference : Reference
  pc : Nat := 0
  retired : Nat := 0
  ending : Option (Except Fault HaltReason) := none
  deriving DecidableEq

namespace Progress

def advance (progress : Progress) (statement : Statement) : Progress :=
  match progress.ending with
  | some _ => progress
  | none =>
      match statement.meaning progress.reference with
      | .error trap => { progress with ending := some (.error ⟨progress.pc, trap⟩) }
      | .ok reference =>
          { reference := reference
            pc := progress.pc + statement.width
            retired := progress.retired + 1
            ending := if statement = .hlt then some (.ok .hlt) else none }

def result (progress : Progress) : Except Fault HaltReason :=
  progress.ending.getD (.ok .endOfProgram)

theorem foldl_of_ended {progress : Progress} {ending : Except Fault HaltReason}
    (ended : progress.ending = some ending) (statements : List Statement) :
    statements.foldl advance progress = progress := by
  induction statements with
  | nil => rfl
  | cons statement rest ih =>
      have stays : progress.advance statement = progress := by simp [advance, ended]
      rw [List.foldl_cons, stays, ih]

end Progress

def interpret (program : List Statement) (registers : Vector UInt8 8) (stack : List UInt8) :
    Progress :=
  program.foldl Progress.advance { reference := ⟨registers, stack, []⟩ }

def assemble (program : List Statement) : List UInt8 :=
  program.flatMap Statement.encode

@[simp]
theorem assemble_nil : assemble [] = [] := rfl

@[simp]
theorem assemble_append (before after : List Statement) :
    assemble (before ++ after) = assemble before ++ assemble after :=
  List.flatMap_append

@[simp]
theorem assemble_cons (statement : Statement) (rest : List Statement) :
    assemble (statement :: rest) = statement.encode ++ assemble rest :=
  List.flatMap_cons

/--
How far the meaning of `program` got, told by its bytes: it is through all of it or has an end,
and both the program counter and the address of a fault are what the retired statements take.
-/
structure Progress.Covers (program : List Statement) (progress : Progress) : Prop where
  retired : progress.retired ≤ program.length
  going : progress.ending = none → progress.retired = program.length
  pc : progress.pc = (assemble (program.take progress.retired)).length
  fault : ∀ fault, progress.ending = some (.error fault) → fault.pc = progress.pc

theorem Progress.Covers.fault_of_result {program : List Statement} {progress : Progress}
    {fault : Fault} (covers : progress.Covers program) (failed : progress.result = .error fault) :
    fault.pc = progress.pc := by
  apply covers.fault
  cases ended : progress.ending with
  | none => simp [Progress.result, ended] at failed
  | some ending =>
      rw [Progress.result, ended] at failed
      exact congrArg some failed

theorem Progress.Covers.advance {program : List Statement} {progress : Progress}
    (covers : progress.Covers program) (statement : Statement) :
    (progress.advance statement).Covers (program ++ [statement]) := by
  have taken : (program ++ [statement]).take progress.retired = program.take progress.retired :=
    List.take_append_of_le_length covers.retired
  have longer : progress.retired ≤ (program ++ [statement]).length := by
    rw [List.length_append]
    exact Nat.le_add_right_of_le covers.retired
  unfold Progress.advance
  cases ended : progress.ending with
  | some ending =>
      refine ⟨longer, ?_, taken.symm ▸ covers.pc, covers.fault⟩
      simp [ended]
  | none =>
      cases statement.meaning progress.reference with
      | error trap =>
          refine ⟨longer, ?_, taken.symm ▸ covers.pc, ?_⟩
          · simp
          · rintro fault ⟨⟩
            rfl
      | ok reference =>
          have all := covers.going ended
          have whole := covers.pc
          rw [all, List.take_length] at whole
          refine ⟨?_, ?_, ?_, ?_⟩
          · simp [all]
          · simp [all]
          · simp [all, whole, List.take_of_length_le]
          · intro fault
            by_cases last : statement = .hlt <;> simp [last]

theorem Progress.Covers.foldl {before rest : List Statement} {progress : Progress}
    (covers : progress.Covers before) :
    (rest.foldl Progress.advance progress).Covers (before ++ rest) := by
  induction rest generalizing before progress with
  | nil =>
      rw [List.append_nil]
      exact covers
  | cons statement rest ih =>
      have further := ih (covers.advance statement)
      rw [List.append_assoc] at further
      exact further

theorem covers_interpret (program : List Statement) (registers : Vector UInt8 8)
    (stack : List UInt8) : (interpret program registers stack).Covers program := by
  have unstarted : ({ reference := ⟨registers, stack, []⟩ } : Progress).Covers [] :=
    ⟨Nat.le_refl _, fun _ => rfl, rfl, fun _ ended => nomatch ended⟩
  exact unstarted.foldl

namespace Engine

/-- The engine runs the bytes of `before ++ rest` and has come to `rest` as `progress` has. -/
structure Tracks (before rest : List Statement) (progress : Progress) (engine : Engine) :
    Prop where
  running : engine.state = .running
  growable : engine.machine.placement = .growable
  memory : engine.machine.memory = Memory.zero.overlay 0 (assemble (before ++ rest))
  programEnd : engine.machine.programEnd = (assemble (before ++ rest)).length
  here : engine.machine.pc = (assemble before).length
  going : progress.ending = none
  pc : engine.machine.pc = progress.pc
  retired : engine.tally.retired = progress.retired
  registers : engine.machine.registers.cells = progress.reference.registers
  stack : engine.machine.stack = progress.reference.stack

structure Fulfils (code printed : List UInt8) (expected : Progress)
    (outcome : Outcome Emission Engine (Failure Fault) HaltReason) : Prop where
  result : outcome.result = expected.result.mapError .raised
  registers : outcome.state.machine.registers.cells = expected.reference.registers
  stack : outcome.state.machine.stack = expected.reference.stack
  printed : printed ++ printedValues outcome.emitted = expected.reference.printed
  retired : outcome.state.tally.retired = expected.retired
  pc : outcome.state.machine.pc = expected.pc
  memory : outcome.state.machine.memory = Memory.zero.overlay 0 code

namespace Tracks

variable {before rest : List Statement} {statement : Statement} {progress : Progress}
  {engine : Engine}

theorem inside (tracks : Tracks before (statement :: rest) progress engine) :
    engine.machine.pc < engine.machine.programEnd := by
  rw [tracks.here, tracks.programEnd]
  simp only [assemble_append, assemble_cons, List.length_append, Statement.length_encode,
    Statement.width]
  omega

theorem fetched (tracks : Tracks before (statement :: rest) progress engine)
    (fits : (assemble (before ++ statement :: rest)).length ≤ memorySize) :
    engine.machine.fetched = .ok (statement.instruction engine.machine.pc) := by
  apply statement.decode_encode
  intro offset short
  have held :
      (assemble before).length + offset < (assemble (before ++ statement :: rest)).length := by
    simp only [assemble_append, assemble_cons, List.length_append, Statement.length_encode]
    omega
  rw [tracks.memory, tracks.here, Memory.byte?_overlay_zero held fits]
  simp [List.getElem?_append_right, List.getElem?_append_left, short]

theorem transition (tracks : Tracks before (statement :: rest) progress engine)
    (fits : (assemble (before ++ statement :: rest)).length ≤ memorySize) :
    engine.machine.transition =
      (statement.meaning ⟨engine.machine.registers.cells, engine.machine.stack, []⟩).map
        (statement.retirement engine.machine) := by
  rw [Machine.transition_of_fetched (tracks.fetched fits),
    statement.effect_eq_meaning tracks.growable]
  cases statement.meaning ⟨engine.machine.registers.cells, engine.machine.stack, []⟩ with
  | error trap => rfl
  | ok after => simp [Statement.retirement]

theorem meaning (tracks : Tracks before (statement :: rest) progress engine) :
    statement.meaning progress.reference =
      (statement.meaning ⟨engine.machine.registers.cells, engine.machine.stack, []⟩).map
        fun after => { after with printed := progress.reference.printed ++ after.printed } := by
  rw [tracks.registers, tracks.stack]
  exact statement.meaning_printed _ _ _

theorem advance_error (tracks : Tracks before (statement :: rest) progress engine) {trap : Trap}
    (fails : statement.meaning ⟨engine.machine.registers.cells, engine.machine.stack, []⟩ =
      .error trap) :
    progress.advance statement =
      { progress with ending := some (.error ⟨engine.machine.pc, trap⟩) } := by
  have meaning := tracks.meaning
  rw [fails, error_map] at meaning
  simp [Progress.advance, tracks.going, meaning, tracks.pc]

theorem advance_ok (tracks : Tracks before (statement :: rest) progress engine)
    {after : Reference}
    (means : statement.meaning ⟨engine.machine.registers.cells, engine.machine.stack, []⟩ =
      .ok after) :
    progress.advance statement =
      { reference := { after with printed := progress.reference.printed ++ after.printed }
        pc := engine.machine.pc + statement.width
        retired := engine.tally.retired + 1
        ending := if statement = .hlt then some (.ok .hlt) else none } := by
  have meaning := tracks.meaning
  rw [means, ok_map] at meaning
  simp [Progress.advance, tracks.going, meaning, tracks.pc, tracks.retired]

theorem next (tracks : Tracks before (statement :: rest) progress engine) {after : Reference}
    (means : statement.meaning ⟨engine.machine.registers.cells, engine.machine.stack, []⟩ =
      .ok after)
    (goesOn : statement ≠ .hlt) :
    Tracks (before ++ [statement]) rest (progress.advance statement)
      (engine.retire (statement.retirement engine.machine after)) := by
  have again : (before ++ [statement]) ++ rest = before ++ statement :: rest := by simp
  rw [tracks.advance_ok means, if_neg goesOn]
  constructor
  case running => exact statement.state_retirement goesOn
  case growable => exact tracks.growable
  case memory =>
    rw [again]
    exact tracks.memory
  case programEnd =>
    rw [again]
    exact tracks.programEnd
  case here => simp [retire, Statement.retirement, tracks.here]
  case going => rfl
  case pc => rfl
  case retired => exact Tally.retired_record ..
  case registers => rfl
  case stack => rfl

end Tracks

theorem run_of_tracks {before rest : List Statement} {progress : Progress} {engine : Engine}
    (tracks : Tracks before rest progress engine)
    (fits : (assemble (before ++ rest)).length ≤ memorySize) :
    Fulfils (assemble (before ++ rest)) progress.reference.printed
      (rest.foldl Progress.advance progress) (run.run engine) := by
  -- What is left of the program gets shorter, and `Tracks` says where the engine is in it.
  induction rest generalizing before progress engine with
  | nil =>
      have reached : engine.machine.programEnd = engine.machine.pc := by
        rw [tracks.programEnd, tracks.here, List.append_nil]
      have past := Nat.le_of_eq reached
      have ended := tick_at_end tracks.running past
      have stopped := run_halted (congrArg Outcome.result ended)
      rw [stopped, ended]
      exact ⟨by simp [Progress.result, tracks.going], tracks.registers, tracks.stack,
        List.append_nil _, tracks.retired, tracks.pc, tracks.memory⟩
  | cons statement rest ih =>
      have moved := tracks.transition fits
      rw [List.foldl_cons]
      cases means : statement.meaning
          ⟨engine.machine.registers.cells, engine.machine.stack, []⟩ with
      | error trap =>
          rw [means, error_map] at moved
          have failed := tick_trapped tracks.running tracks.inside moved
          have stopped := run_error (congrArg Outcome.result failed)
          rw [tracks.advance_error means, Progress.foldl_of_ended rfl, stopped, failed]
          exact ⟨rfl, tracks.registers, tracks.stack, by simp, tracks.retired, tracks.pc,
            tracks.memory⟩
      | ok after =>
          rw [means, ok_map] at moved
          have retired := tick_retired tracks.running tracks.inside moved
          have advanced := tracks.advance_ok means
          by_cases last : statement = .hlt
          · subst last
            have stopped := run_halted (congrArg Outcome.result retired)
            rw [if_pos rfl] at advanced
            rw [advanced, Progress.foldl_of_ended rfl, stopped, retired]
            exact ⟨rfl, rfl, rfl, by simp [Statement.retirement], Tally.retired_record .., rfl,
              tracks.memory⟩
          · have goesOn : (tick.run engine).result = .ok .running := by
              rw [retired, statement.state_retirement last]
            have again : (before ++ [statement]) ++ rest = before ++ statement :: rest := by simp
            have later := ih (tracks.next means last) (again ▸ fits)
            rw [again] at later
            have prefixed := congrArg (·.reference.printed) advanced
            rw [run_running goesOn, retired]
            refine ⟨later.result, later.registers, later.stack, ?_, later.retired, later.pc,
              later.memory⟩
            rw [← later.printed, prefixed]
            simp [Statement.retirement]

theorem tracks_loaded {program : List Statement} (engine : Engine)
    (fits : (assemble program).length ≤ memorySize)
    (growable : engine.machine.placement = .growable) (entry : engine.machine.entry = 0) :
    Tracks [] program
      { reference := ⟨engine.machine.registers.cells, engine.machine.stack, []⟩ }
      (engine.loaded (assemble program) (Nat.lt_succ_of_le fits)) where
  running := by simp [loaded]
  growable := by simp [loaded, growable]
  memory := by simp [loaded]
  programEnd := by simp [loaded]
  here := by simp [loaded, entry]
  going := by simp
  pc := by simp [loaded, entry]
  retired := by simp [loaded]
  registers := by simp [loaded]
  stack := by simp [loaded]

theorem run_assembled (program : List Statement) (engine : Engine)
    (fits : (assemble program).length ≤ memorySize)
    (growable : engine.machine.placement = .growable) (entry : engine.machine.entry = 0) :
    let loading := (load (assemble program)).run engine
    let running := run.run loading.state
    let expected := interpret program engine.machine.registers.cells engine.machine.stack
    loading.result = .ok () ∧
    running.result = expected.result.mapError .raised ∧
    running.state.machine.registers.cells = expected.reference.registers ∧
    running.state.machine.stack = expected.reference.stack ∧
    printedValues (loading.emitted ++ running.emitted) = expected.reference.printed ∧
    running.state.tally.retired = expected.retired ∧
    running.state.machine.pc = (assemble (program.take expected.retired)).length ∧
    (∀ fault, expected.result = .error fault → fault.pc = running.state.machine.pc) ∧
    running.state.machine.memory.toList =
      assemble program ++ List.replicate (memorySize - (assemble program).length) 0 := by
  intro loading running expected
  have placed : loading = _ := run_load fits engine
  have fulfilled : Fulfils (assemble program) [] expected running := by
    rw [show running = run.run loading.state from rfl, placed]
    exact run_of_tracks (tracks_loaded engine fits growable entry) fits
  have covers := covers_interpret program engine.machine.registers.cells engine.machine.stack
  refine ⟨congrArg Outcome.result placed, fulfilled.result, fulfilled.registers,
    fulfilled.stack, ?_, fulfilled.retired, fulfilled.pc.trans covers.pc, ?_, ?_⟩
  · rw [printedValues_append, placed]
    exact fulfilled.printed
  · intro fault failed
    rw [fulfilled.pc]
    exact covers.fault_of_result failed
  · rw [fulfilled.memory]
    exact Memory.toList_overlay_zero fits

theorem run_assembled_square :
    let program : List Statement :=
      [.ldi 0 20, .push 0, .pop 1, .mul 1 0, .prn 1, .pop 2, .hlt]
    let loading := (load (assemble program)).run (.ofSettings {})
    let running := run.run loading.state
    (assemble program).length ≤ memorySize ∧
    running.result = .error (.raised ⟨12, .stackUnderflow⟩) ∧
    printedValues (loading.emitted ++ running.emitted) = [144] ∧
    running.state.tally.retired = 5 := by
  intro program loading running
  obtain ⟨-, ended, -, -, printed, retired, -⟩ :=
    run_assembled program (.ofSettings {}) (by decide) rfl rfl
  refine ⟨by decide, ended.trans ?_, printed.trans ?_, retired.trans ?_⟩
  · decide +kernel
  · decide +kernel
  · decide +kernel

end Engine

end LS8
