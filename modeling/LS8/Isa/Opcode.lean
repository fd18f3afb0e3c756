import LS8.Text.Numeral

set_option autoImplicit false

namespace LS8

def maxOperands : Nat := 2

inductive Mnemonic
  | hlt
  | ldi
  | prn
  | mul
  | push
  | pop
  deriving DecidableEq, Repr

def Mnemonic.name : Mnemonic → String
  | .hlt => "HLT"
  | .ldi => "LDI"
  | .prn => "PRN"
  | .mul => "MUL"
  | .push => "PUSH"
  | .pop => "POP"

theorem Mnemonic.name_injective (m n : Mnemonic) (same : m.name = n.name) : m = n := by
  cases m <;> cases n <;> simp_all [Mnemonic.name]

inductive ExecutionUnit
  | arithmetic
  | general
  deriving DecidableEq, Repr

def ExecutionUnit.name : ExecutionUnit → String
  | .arithmetic => "ALU"
  | .general => "general"

namespace Opcode

def operandCount (opcode : UInt8) : Nat :=
  (opcode >>> 6).toNat

def isArithmetic (opcode : UInt8) : Bool :=
  opcode &&& 0x20 != 0

def setsPc (opcode : UInt8) : Bool :=
  opcode &&& 0x10 != 0

def executionUnit (opcode : UInt8) : ExecutionUnit :=
  if isArithmetic opcode then .arithmetic else .general

end Opcode

/--
What the machine knows of an opcode. Only the entries of `instructionSet` are ever fetched, but a
descriptor may be built by hand, and then its fields need not agree with each other.
-/
structure Descriptor where
  opcode : UInt8
  mnemonic : Mnemonic
  operandCount : Nat
  executionUnit : ExecutionUnit
  deriving DecidableEq, Repr

namespace Descriptor

def ofOpcode (opcode : UInt8) (mnemonic : Mnemonic) : Descriptor where
  opcode := opcode
  mnemonic := mnemonic
  operandCount := Opcode.operandCount opcode
  executionUnit := Opcode.executionUnit opcode

def width (descriptor : Descriptor) : Nat :=
  1 + descriptor.operandCount

end Descriptor

def Mnemonic.opcode : Mnemonic → UInt8
  | .hlt => 0b00000001
  | .ldi => 0b10000010
  | .prn => 0b01000111
  | .mul => 0b10100010
  | .push => 0b01000101
  | .pop => 0b01000110

def Mnemonic.descriptor (mnemonic : Mnemonic) : Descriptor :=
  Descriptor.ofOpcode mnemonic.opcode mnemonic

def instructionSet : List Descriptor :=
  [Mnemonic.hlt, .ldi, .prn, .mul, .push, .pop].map Mnemonic.descriptor

def Descriptor.lookup (opcode : UInt8) : Option Descriptor :=
  instructionSet.find? fun descriptor => descriptor.opcode == opcode

namespace Descriptor

@[simp]
theorem lookup_opcode (mnemonic : Mnemonic) :
    lookup mnemonic.opcode = some mnemonic.descriptor := by
  cases mnemonic <;> rfl

theorem opcode_of_lookup {opcode : UInt8} {descriptor : Descriptor}
    (found : lookup opcode = some descriptor) : descriptor.opcode = opcode := by
  have holds := List.find?_some found
  simpa using holds

theorem lookup_eq_some_iff {opcode : UInt8} {descriptor : Descriptor} :
    lookup opcode = some descriptor ↔
      ∃ mnemonic : Mnemonic,
        opcode = mnemonic.opcode ∧ descriptor = mnemonic.descriptor := by
  constructor
  · intro found
    have listed := List.mem_of_find?_eq_some found
    obtain ⟨mnemonic, -, rfl⟩ := List.mem_map.mp listed
    exact ⟨mnemonic, (opcode_of_lookup found).symm, rfl⟩
  · rintro ⟨mnemonic, rfl, rfl⟩
    exact lookup_opcode mnemonic

theorem operandCount_le_of_lookup {opcode : UInt8} {descriptor : Descriptor}
    (found : lookup opcode = some descriptor) : descriptor.operandCount ≤ maxOperands := by
  obtain ⟨mnemonic, -, rfl⟩ := lookup_eq_some_iff.mp found
  cases mnemonic <;> decide

end Descriptor

end LS8
