import LS8.Isa.Opcode

set_option autoImplicit false

namespace LS8

inductive Location
  | register (index : Nat)
  | memory (address : Nat)
  deriving DecidableEq, Repr

inductive Trap
  | outOfRange (location : Location)
  | illegalInstruction (opcode : UInt8) (pc : Nat)
  | unsupportedOperation (mnemonic : Mnemonic) (executionUnit : ExecutionUnit)
  | stackUnderflow
  deriving DecidableEq, Repr

structure Fault where
  pc : Nat
  trap : Trap
  deriving DecidableEq, Repr

inductive Defect
  | addressOverflow
  -- A descriptor claims more operands than an instruction has slots for.
  | operandSlots (count : Nat)
  -- A jump was retired by an opcode that may not set the program counter.
  | jumpWithoutSetsPc (opcode : UInt8)
  deriving DecidableEq, Repr

inductive Failure (ε : Type)
  | raised (cause : ε)
  | defect (defect : Defect)
  deriving DecidableEq, Repr

def addressSpace : Nat := 0x1_0000_0000_0000_0000

def Location.text : Location → String
  | .register index => "register R" ++ Numeral.decimal index
  | .memory address => "memory address 0x" ++ Numeral.hex address

def Trap.text : Trap → String
  | .outOfRange location => "OutOfRange(" ++ location.text ++ ")"
  | .illegalInstruction opcode pc =>
      "IllegalInstruction(0x" ++ Numeral.hex opcode.toNat ++ " at 0x" ++ Numeral.hex pc ++ ")"
  | .unsupportedOperation mnemonic executionUnit =>
      "UnsupportedOperation(" ++ mnemonic.name ++ " on " ++ executionUnit.name ++ ")"
  | .stackUnderflow => "StackUnderflow"

def Fault.text (fault : Fault) : String :=
  "fault at pc 0x" ++ Numeral.hex fault.pc ++ ": " ++ fault.trap.text

def Defect.text : Defect → String
  | .addressOverflow => "attempt to add with overflow"
  | .operandSlots count =>
      "range end index " ++ Numeral.decimal count ++ " out of range for slice of length "
        ++ Numeral.decimal maxOperands
  | .jumpWithoutSetsPc opcode =>
      "jump retired by opcode 0x" ++ Numeral.hex opcode.toNat ++ " without the sets-PC bit"

example :
    (Fault.mk 3 (.outOfRange (.memory 256))).text =
      "fault at pc 0x03: OutOfRange(memory address 0x100)" := by
  decide

end LS8
