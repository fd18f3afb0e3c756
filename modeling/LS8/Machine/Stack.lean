import LS8.Machine.Basic

set_option autoImplicit false

namespace LS8.Machine

def push (value : UInt8) : MachineAction Unit := do
  let machine ← .get
  match machine.placement with
  | .growable => .modify fun machine => { machine with stack := value :: machine.stack }
  | .ram =>
      let pointer ← readRegister stackPointer
      writeMemory (pointer - 1).toNat value
      writeRegister stackPointer (pointer - 1)

/-- The most recent value. A stack in memory is empty when its pointer is at the stack top. -/
def pop : MachineAction UInt8 := do
  let machine ← .get
  match machine.placement with
  | .growable =>
      match machine.stack with
      | [] => .fail .stackUnderflow
      | value :: rest =>
          .modify fun machine => { machine with stack := rest }
          return value
  | .ram =>
      let pointer ← readRegister stackPointer
      if pointer = machine.stackTop then
        .fail .stackUnderflow
      else
        let value ← readMemory pointer.toNat
        writeRegister stackPointer (pointer + 1)
        return value

def stackDepth (machine : Machine) : Nat :=
  match machine.placement with
  | .growable => machine.stack.length
  | .ram =>
      (machine.stackTop - machine.registers.get ⟨stackPointer, stackPointer_lt⟩).toNat

end LS8.Machine
