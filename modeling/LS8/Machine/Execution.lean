import LS8.Machine.Stack

set_option autoImplicit false

namespace LS8

inductive Flow
  | next
  | jump (target : Nat)
  | halt
  deriving DecidableEq, Repr

def Mnemonic.compute (mnemonic : Mnemonic) (a b : UInt8) : Except Trap UInt8 :=
  match mnemonic with
  | .mul => .ok (a * b)
  | other => .error (.unsupportedOperation other .arithmetic)

namespace Machine

def fetched (machine : Machine) : Except Trap Instruction :=
  Instruction.decode machine.memory.byte? machine.pc

def fetch : MachineAction Instruction :=
  .inspect fetched

def executeArithmetic (inst : Instruction) : MachineAction Flow := do
  let left ← readRegister inst.a.toNat
  let right ← readRegister inst.b.toNat
  let value ← .inspect fun _ => inst.mnemonic.compute left right
  writeRegister inst.a.toNat value
  return .next

def executeGeneral (inst : Instruction) : MachineAction Flow :=
  match inst.mnemonic with
  | .hlt => return .halt
  | .ldi => do
      writeRegister inst.a.toNat inst.b
      return .next
  | .prn => do
      let value ← readRegister inst.a.toNat
      .emit value
      return .next
  | .push => do
      let value ← readRegister inst.a.toNat
      push value
      return .next
  | .pop => do
      -- A bad register index must not cost the stack a value.
      let _ ← .inspect fun _ => Registers.checkedIndex inst.a.toNat
      let value ← pop
      writeRegister inst.a.toNat value
      return .next
  | .mul => .fail (.unsupportedOperation .mul .general)

def execute (inst : Instruction) : MachineAction Flow :=
  match inst.descriptor.executionUnit with
  | .arithmetic => executeArithmetic inst
  | .general => executeGeneral inst

def retired (inst : Instruction) (flow : Flow) (machine : Machine) :
    Except (Failure Trap) Machine :=
  match flow with
  | .next | .halt =>
      if inst.pc + inst.width < addressSpace then
        .ok { machine with pc := inst.pc + inst.width }
      else
        .error (.defect .addressOverflow)
  | .jump target =>
      if !Opcode.setsPc inst.descriptor.opcode then
        .error (.defect (.jumpWithoutSetsPc inst.descriptor.opcode))
      else if memorySize < target then
        .error (.raised (.outOfRange (.memory target)))
      else
        .ok { machine with pc := target }

def retire (inst : Instruction) (flow : Flow) : Action UInt8 Machine (Failure Trap) Unit :=
  .update (retired inst flow)

end Machine

end LS8
