import LS8.Proofs.Transition

set_option autoImplicit false

namespace LS8

structure Hazard where
  holds : Bool
  trap : Trap
  deriving DecidableEq, Repr

def firstTrap? (hazards : List Hazard) : Option Trap :=
  (hazards.find? Hazard.holds).map Hazard.trap

@[simp]
theorem firstTrap?_nil : firstTrap? [] = none := rfl

@[simp]
theorem firstTrap?_cons (holds : Bool) (trap : Trap) (rest : List Hazard) :
    firstTrap? (⟨holds, trap⟩ :: rest) = if holds then some trap else firstTrap? rest := by
  cases holds <;> rfl

section First

variable {hazards : List Hazard} {trap : Trap}

theorem firstTrap?_eq_some_iff :
    firstTrap? hazards = some trap ↔
      ∃ hazard, hazards.find? Hazard.holds = some hazard ∧ hazard.trap = trap :=
  Option.map_eq_some_iff

theorem exists_firstTrap?_iff :
    (∃ trap, firstTrap? hazards = some trap) ↔ ∃ hazard ∈ hazards, hazard.holds = true := by
  rw [← Option.isSome_iff_exists, firstTrap?, Option.isSome_map, List.find?_isSome]

theorem exists_mem_of_firstTrap? (first : firstTrap? hazards = some trap) :
    ∃ hazard ∈ hazards, hazard.trap = trap := by
  obtain ⟨hazard, found, same⟩ := firstTrap?_eq_some_iff.mp first
  exact ⟨hazard, List.mem_of_find?_eq_some found, same⟩

end First

namespace Machine

def byteAt (machine : Machine) (address : Nat) : UInt8 :=
  (machine.memory.byte? address).getD 0

def stackIsEmpty (machine : Machine) : Bool :=
  match machine.placement with
  | .growable => machine.stack = []
  | .ram => machine.pointer = machine.stackTop

def opcodes : List UInt8 :=
  [Mnemonic.hlt, .ldi, .prn, .mul, .push, .pop].map Mnemonic.opcode

def registerOpcodes : List UInt8 :=
  [Mnemonic.ldi, .prn, .mul, .push, .pop].map Mnemonic.opcode

def operandHazards (opcode a b : UInt8) (machine : Machine) : List Hazard :=
  [⟨opcode ∈ registerOpcodes ∧ registerCount ≤ a.toNat, .outOfRange (.register a.toNat)⟩,
    ⟨opcode = Mnemonic.mul.opcode ∧ registerCount ≤ b.toNat, .outOfRange (.register b.toNat)⟩,
    ⟨opcode = Mnemonic.pop.opcode ∧ machine.stackIsEmpty, .stackUnderflow⟩]

/-- The hazards of the instruction at the program counter, in the order of precedence. -/
def hazards (machine : Machine) : List Hazard :=
  let opcode := machine.byteAt machine.pc
  let width := 1 + Opcode.operandCount opcode
  ⟨opcode ∉ opcodes, .illegalInstruction opcode machine.pc⟩ ::
    ⟨memorySize < machine.pc + width, .outOfRange (.memory memorySize)⟩ ::
    operandHazards opcode (machine.byteAt (machine.pc + 1)) (machine.byteAt (machine.pc + 2)) machine

theorem popped_of_stackIsEmpty {machine : Machine} (empty : machine.stackIsEmpty = true) :
    machine.popped = .error .stackUnderflow := by
  cases placed : machine.placement with
  | growable =>
      have none : machine.stack = [] := by simpa [stackIsEmpty, placed] using empty
      simp [popped_growable placed, none]
  | ram =>
      have bottom : machine.pointer = machine.stackTop := by
        simpa [stackIsEmpty, placed] using empty
      rw [popped_ram placed, if_pos bottom]

theorem popped_of_not_stackIsEmpty {machine : Machine} (held : machine.stackIsEmpty = false) :
    ∃ top, machine.popped = .ok top := by
  cases placed : machine.placement with
  | growable =>
      rw [popped_growable placed]
      cases stack : machine.stack with
      | nil => simp [stackIsEmpty, placed, stack] at held
      | cons value rest => exact ⟨_, rfl⟩
  | ram =>
      have above : machine.pointer ≠ machine.stackTop := by
        simpa [stackIsEmpty, placed] using held
      exact ⟨_, by rw [popped_ram placed, if_neg above]⟩

end Machine

theorem Registers.error_checked_iff {β : Type} {index : Nat} {trap : Trap}
    (next : Fin registerCount → Except Trap β) :
    (checkedIndex index >>= next) = .error trap ↔
      if outside : registerCount ≤ index then Trap.outOfRange (.register index) = trap
      else next ⟨index, Nat.not_le.mp outside⟩ = .error trap := by
  by_cases outside : registerCount ≤ index
  · rw [checkedIndex_of_not_lt (Nat.not_lt.mpr outside), error_bind, dif_pos outside,
      Except.error.injEq]
  · rw [checkedIndex_of_lt (Nat.not_le.mp outside), ok_bind, dif_neg outside]

namespace Mnemonic

variable (mnemonic : Mnemonic) (a b : UInt8) (machine : Machine)

theorem firstTrap?_operandHazards :
    firstTrap? (machine.operandHazards mnemonic.opcode a b) =
      match mnemonic with
      | .hlt => none
      | .ldi | .prn | .push =>
          if registerCount ≤ a.toNat then some (.outOfRange (.register a.toNat)) else none
      | .mul =>
          if registerCount ≤ a.toNat then some (.outOfRange (.register a.toNat))
          else if registerCount ≤ b.toNat then some (.outOfRange (.register b.toNat)) else none
      | .pop =>
          if registerCount ≤ a.toNat then some (.outOfRange (.register a.toNat))
          else if machine.stackIsEmpty then some .stackUnderflow else none := by
  cases mnemonic <;> simp [Machine.operandHazards, Machine.registerOpcodes, opcode]

theorem error_effect_iff (trap : Trap) :
    mnemonic.effect a b machine = .error trap ↔
      firstTrap? (machine.operandHazards mnemonic.opcode a b) = some trap := by
  rw [firstTrap?_operandHazards]
  cases mnemonic with
  | hlt => simp [effect]
  | ldi | prn | push =>
      simp only [effect, Registers.error_checked_iff]
      split <;> simp
  | mul =>
      simp only [effect, Registers.error_checked_iff]
      split
      · simp
      · split <;> simp
  | pop =>
      simp only [effect, Registers.error_checked_iff]
      split
      · simp
      · cases empty : machine.stackIsEmpty with
        | true => simp [Machine.popped_of_stackIsEmpty empty]
        | false =>
            obtain ⟨top, popped⟩ := Machine.popped_of_not_stackIsEmpty empty
            simp [popped]

theorem trap_of_effect {mnemonic : Mnemonic} {a b : UInt8} {machine : Machine} {trap : Trap}
    (failed : mnemonic.effect a b machine = .error trap) :
    (∃ index, trap = .outOfRange (.register index)) ∨ trap = .stackUnderflow := by
  rw [error_effect_iff] at failed
  obtain ⟨hazard, listed, rfl⟩ := exists_mem_of_firstTrap? failed
  simp only [Machine.operandHazards, List.mem_cons, List.not_mem_nil, or_false] at listed
  rcases listed with rfl | rfl | rfl
  · exact .inl ⟨_, rfl⟩
  · exact .inl ⟨_, rfl⟩
  · exact .inr rfl

end Mnemonic

theorem Mnemonic.mem_opcodes (mnemonic : Mnemonic) : mnemonic.opcode ∈ Machine.opcodes := by
  cases mnemonic <;> decide

theorem Descriptor.not_mem_opcodes {opcode : UInt8} (unknown : lookup opcode = none) :
    opcode ∉ Machine.opcodes := by
  intro listed
  obtain ⟨mnemonic, -, rfl⟩ := List.mem_map.mp listed
  simp at unknown

namespace Machine

variable {machine : Machine} {trap : Trap}

theorem error_transition_of_fetched {inst : Instruction} (fetched : machine.fetched = .ok inst) :
    machine.transition = .error trap ↔ machine.effect inst = .error trap := by
  rw [transition_of_fetched fetched]
  cases machine.effect inst <;> simp

theorem byteAt_eq {address : Nat} {byte : UInt8} (held : machine.memory.byte? address = some byte) :
    machine.byteAt address = byte := by
  rw [byteAt, held]
  rfl

theorem firstTrap?_operandBytes (mnemonic : Mnemonic) :
    firstTrap? (machine.operandHazards mnemonic.opcode
      (Instruction.operandByte machine.memory.byte? machine.pc mnemonic.descriptor.operandCount 0)
      (Instruction.operandByte machine.memory.byte? machine.pc mnemonic.descriptor.operandCount 1)) =
    firstTrap? (machine.operandHazards mnemonic.opcode (machine.byteAt (machine.pc + 1))
      (machine.byteAt (machine.pc + 2))) := by
  simp only [Mnemonic.firstTrap?_operandHazards, Mnemonic.operandCount_descriptor]
  cases mnemonic <;> rfl

theorem error_transition_iff (inside : machine.pc < memorySize) :
    machine.transition = .error trap ↔ firstTrap? machine.hazards = some trap := by
  obtain ⟨opcode, here⟩ := Memory.exists_byte?_iff.mpr inside
  rw [hazards, byteAt_eq here, firstTrap?_cons, firstTrap?_cons]
  cases found : Descriptor.lookup opcode with
  | none =>
      have failed : machine.fetched = .error (.illegalInstruction opcode machine.pc) :=
        Instruction.decode_illegal here found
      simp [transition_of_not_fetched failed, Descriptor.not_mem_opcodes found]
  | some descriptor =>
      obtain ⟨mnemonic, rfl, rfl⟩ := Descriptor.lookup_eq_some_iff.mp found
      have width : 1 + Opcode.operandCount mnemonic.opcode = mnemonic.descriptor.width := rfl
      simp only [mnemonic.mem_opcodes, not_true, decide_false, width, Bool.false_eq_true, if_false,
        decide_eq_true_eq]
      by_cases outside : memorySize < machine.pc + mnemonic.descriptor.width
      · have failed : machine.fetched = .error (.outOfRange (.memory memorySize)) :=
          Instruction.decode_outside machine.memory.endsAt here found outside
        simp [transition_of_not_fetched failed, outside]
      · have fetched : machine.fetched = .ok ⟨machine.pc, mnemonic.descriptor, _, _⟩ :=
          Instruction.decode_inside machine.memory.endsAt here found (Nat.not_lt.mp outside)
        rw [error_transition_of_fetched fetched, effect_of_descriptor, if_neg outside,
          ← firstTrap?_operandBytes, ← Mnemonic.error_effect_iff]

theorem trap_of_execute_decoded {source : ByteSource} {pc : Nat} {inst : Instruction}
    (decoded : Instruction.decode source pc = .ok inst)
    (failed : ((execute inst).run machine).result = .error trap) :
    (∃ index, trap = .outOfRange (.register index)) ∨ trap = .stackUnderflow := by
  obtain ⟨mnemonic, a, b, rfl⟩ := Instruction.eq_of_decode decoded
  rw [run_execute, effect_of_descriptor] at failed
  cases reached : mnemonic.effect a b machine with
  | ok effect => simp [reached, settled] at failed
  | error cause =>
      simp only [reached, settled, Except.error.injEq] at failed
      exact Mnemonic.trap_of_effect (failed ▸ reached)

theorem flow_of_execute {inst : Instruction} {flow : Flow}
    (completed : ((execute inst).run machine).result = .ok flow) : flow = inst.flow := by
  rw [run_execute] at completed
  cases reached : effect inst machine with
  | ok effect => simpa [reached, settled] using completed.symm
  | error cause => simp [reached, settled] at completed

theorem execute_push_of_decoded {source : ByteSource} {pc : Nat} {inst : Instruction}
    (decoded : Instruction.decode source pc = .ok inst) (push : inst.mnemonic = .push)
    (valid : inst.a.toNat < registerCount) :
    ((execute inst).run machine).result = .ok .next := by
  obtain ⟨mnemonic, a, b, rfl⟩ := Instruction.eq_of_decode decoded
  obtain rfl : mnemonic = .push := push
  rw [run_execute, effect_of_descriptor, Mnemonic.effect, Registers.checkedIndex_of_lt valid]
  rfl

end Machine

namespace Engine

theorem tick_error_iff {engine : Engine} (running : engine.state = .running)
    (inside : engine.machine.pc < engine.machine.programEnd) (failure : Failure Fault) :
    (tick.run engine).result = .error failure ↔
      ∃ trap, engine.machine.transition = .error trap ∧
        failure = .raised ⟨engine.machine.pc, trap⟩ := by
  cases reached : engine.machine.transition with
  | error trap => simp [tick_trapped running inside reached, eq_comm]
  | ok done => simp [tick_retired running inside reached]

theorem faults_are_first_hazards (engine : Engine) (running : engine.state = .running)
    (inside : engine.machine.pc < engine.machine.programEnd) :
    (∀ failure, (tick.run engine).result = .error failure ↔
      ∃ hazard, engine.machine.hazards.find? Hazard.holds = some hazard ∧
        failure = .raised ⟨engine.machine.pc, hazard.trap⟩) ∧
    ((∃ failure, (tick.run engine).result = .error failure) ↔
      ∃ hazard ∈ engine.machine.hazards, hazard.holds = true) ∧
    (∀ (source : ByteSource) (pc : Nat) (inst : Instruction) (machine : Machine),
      Instruction.decode source pc = .ok inst →
        let executed := (Machine.execute inst).run machine
        (∀ mnemonic executionUnit,
          executed.result ≠ .error (.unsupportedOperation mnemonic executionUnit)) ∧
        (inst.mnemonic = .push → inst.a.toNat < registerCount → executed.result = .ok .next) ∧
        (∀ target, executed.result ≠ .ok (.jump target))) ∧
    (∀ inst flow, engine.machine.fetched = .ok inst →
      let executed := (Machine.execute inst).run engine.machine
      executed.result = .ok flow →
        executed.state.retired inst flow =
          .ok { executed.state with pc := engine.machine.pc + inst.width }) := by
  have address : engine.machine.pc < memorySize := by
    have small := engine.machine.programEnd.isLt
    omega
  have raises (failure : Failure Fault) : (tick.run engine).result = .error failure ↔
      ∃ hazard, engine.machine.hazards.find? Hazard.holds = some hazard ∧
        failure = .raised ⟨engine.machine.pc, hazard.trap⟩ := by
    simp only [tick_error_iff running inside, Machine.error_transition_iff address,
      firstTrap?_eq_some_iff]
    constructor
    · rintro ⟨-, ⟨hazard, found, rfl⟩, raised⟩
      exact ⟨hazard, found, raised⟩
    · rintro ⟨hazard, found, raised⟩
      exact ⟨_, ⟨hazard, found, rfl⟩, raised⟩
  refine ⟨raises, ?_, ?_, ?_⟩
  · rw [← exists_firstTrap?_iff]
    simp only [raises, firstTrap?_eq_some_iff]
    constructor
    · rintro ⟨-, hazard, found, -⟩
      exact ⟨_, hazard, found, rfl⟩
    · rintro ⟨-, hazard, found, -⟩
      exact ⟨_, hazard, found, rfl⟩
  · intro source pc inst machine decoded executed
    refine ⟨?_, Machine.execute_push_of_decoded decoded, ?_⟩
    · intro mnemonic executionUnit failed
      rcases Machine.trap_of_execute_decoded decoded failed with ⟨index, same⟩ | same <;>
        cases same
    · intro target completed
      rcases Machine.execute_yields_no_jump inst machine _ completed with same | same <;>
        cases same
  · intro inst flow fetched executed completed
    rw [Machine.flow_of_execute completed, Machine.retired_of_fetched fetched inside,
      (Instruction.lookup_of_decode fetched).2]

-- POP R9 on an empty stack in memory: both the register and the stack are hazards.
theorem faults_are_first_hazards_of_pop :
    let engine := ((load [0x46, 9]).run (ofSettings { placement := .ram })).state
    (engine.machine.hazards.filter Hazard.holds).map Hazard.trap =
      [.outOfRange (.register 9), .stackUnderflow] ∧
    (tick.run engine).result = .error (.raised ⟨0, .outOfRange (.register 9)⟩) := by
  intro engine
  have first : engine.machine.hazards.find? Hazard.holds =
      some ⟨true, .outOfRange (.register 9)⟩ := by decide +kernel
  obtain ⟨raises, -⟩ := faults_are_first_hazards engine rfl (by decide +kernel)
  exact ⟨by decide +kernel, (raises _).mpr ⟨_, first, rfl⟩⟩

end Engine

end LS8
