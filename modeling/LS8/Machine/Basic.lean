import LS8.Action
import LS8.Machine.Memory
import LS8.Machine.Registers

set_option autoImplicit false

namespace LS8

inductive StackPlacement
  | growable
  | ram
  deriving DecidableEq, Repr

def defaultStackTop : UInt8 := 0xF4

structure Settings where
  traceInstructions : Bool := false
  startPc : UInt8 := 0
  placement : StackPlacement := .growable
  stackTop : UInt8 := defaultStackTop
  deriving DecidableEq, Repr

structure Machine where
  registers : Registers
  memory : Memory
  pc : Nat
  -- The growable stack, most recent value first.
  stack : List UInt8
  placement : StackPlacement
  -- The stack pointer of an empty stack in memory.
  stackTop : UInt8
  entry : UInt8
  -- One past the last byte of the loaded program.
  programEnd : Fin (memorySize + 1)
  deriving DecidableEq, Repr

namespace Machine

def initialRegisters (placement : StackPlacement) (stackTop : UInt8) : Registers :=
  match placement with
  | .growable => .zero
  | .ram => .ofStackPointer stackTop

def ofSettings (settings : Settings) : Machine where
  registers := initialRegisters settings.placement settings.stackTop
  memory := .zero
  pc := settings.startPc.toNat
  stack := []
  placement := settings.placement
  stackTop := settings.stackTop
  entry := settings.startPc
  programEnd := 0

def load (image : List UInt8) (machine : Machine) : Except Trap Machine :=
  match stored : Memory.zero.store 0 image with
  | .ok memory => .ok { machine with
      memory := memory
      programEnd := ⟨image.length, by have := Memory.fits_of_store stored; omega⟩
      pc := machine.entry.toNat }
  | .error trap => .error trap

def reset (machine : Machine) : Machine where
  registers := initialRegisters machine.placement machine.stackTop
  memory := .zero
  pc := machine.entry.toNat
  stack := []
  placement := machine.placement
  stackTop := machine.stackTop
  entry := machine.entry
  programEnd := 0

theorem load_eq_ok {image : List UInt8} (fits : image.length ≤ memorySize) (machine : Machine) :
    machine.load image = .ok { machine with
      memory := Memory.zero.overlay 0 image
      programEnd := ⟨image.length, Nat.lt_succ_of_le fits⟩
      pc := machine.entry.toNat } := by
  have stored : Memory.zero.store 0 image = .ok (Memory.zero.overlay 0 image) := by
    simp [Memory.store, fits]
  unfold load
  split
  next memory same =>
    obtain rfl := Except.ok.inj (stored.symm.trans same)
    rfl
  next trap failed => cases stored.symm.trans failed

theorem load_eq_error {image : List UInt8} (large : memorySize < image.length)
    (machine : Machine) :
    machine.load image = .error (.outOfRange (.memory memorySize)) := by
  have refused : Memory.zero.store 0 image = .error (.outOfRange (.memory memorySize)) := by
    simp [Memory.store, Nat.not_le.mpr large]
  unfold load
  split
  next memory stored => cases refused.symm.trans stored
  next trap same =>
    obtain rfl := Except.error.inj (refused.symm.trans same)
    rfl

end Machine

abbrev MachineAction := Action UInt8 Machine Trap

namespace Machine

def readRegister (index : Nat) : MachineAction UInt8 :=
  .inspect fun machine => machine.registers.read index

def writeRegister (index : Nat) (value : UInt8) : MachineAction Unit :=
  .update fun machine => do
    return { machine with registers := ← machine.registers.write index value }

def readMemory (address : Nat) : MachineAction UInt8 :=
  .inspect fun machine => machine.memory.read address

def writeMemory (address : Nat) (value : UInt8) : MachineAction Unit :=
  .update fun machine => do
    return { machine with memory := ← machine.memory.write address value }

end Machine

end LS8
