import LS8.Trap

set_option autoImplicit false

namespace LS8

abbrev ByteSource := Nat → Option UInt8

def ByteSource.read (source : ByteSource) (address : Nat) : Except Trap UInt8 :=
  match source address with
  | some byte => .ok byte
  | none => .error (.outOfRange (.memory address))

theorem ByteSource.read_eq_ok_iff {source : ByteSource} {address : Nat} {byte : UInt8} :
    source.read address = .ok byte ↔ source address = some byte := by
  unfold ByteSource.read
  split <;> simp_all

def ByteSource.ofList (base : Nat) (bytes : List UInt8) : ByteSource := fun address =>
  if base ≤ address then bytes[address - base]? else none

@[simp]
theorem ByteSource.ofList_zero (bytes : List UInt8) (address : Nat) :
    ofList 0 bytes address = bytes[address]? := by
  simp [ofList]

/-- An instruction at its address, with two operand slots whether it encodes them or not. -/
structure Instruction where
  pc : Nat
  descriptor : Descriptor
  a : UInt8
  b : UInt8
  deriving DecidableEq, Repr

namespace Instruction

def mnemonic (inst : Instruction) : Mnemonic :=
  inst.descriptor.mnemonic

def width (inst : Instruction) : Nat :=
  inst.descriptor.width

theorem width_pos (inst : Instruction) : 0 < inst.width := by
  simp only [width, Descriptor.width]
  omega

def operands (inst : Instruction) : List UInt8 :=
  [inst.a, inst.b].take inst.descriptor.operandCount

/-- The encoded operands, unless the descriptor claims more of them than there are slots. -/
def operands? (inst : Instruction) : Except Defect (List UInt8) :=
  if inst.descriptor.operandCount ≤ maxOperands then
    .ok inst.operands
  else
    .error (.operandSlots inst.descriptor.operandCount)

def width? (inst : Instruction) : Except Defect Nat :=
  if inst.width < addressSpace then .ok inst.width else .error .addressOverflow

def encode (inst : Instruction) : List UInt8 :=
  inst.descriptor.opcode :: inst.operands

theorem length_encode (inst : Instruction)
    (slots : inst.descriptor.operandCount ≤ maxOperands) :
    inst.encode.length = inst.width := by
  simp only [maxOperands] at slots
  simp [encode, operands, width, Descriptor.width]
  omega

def text (inst : Instruction) : String :=
  let name := inst.mnemonic.name
  let a := Numeral.decimal inst.a.toNat
  let b := Numeral.decimal inst.b.toNat
  match inst.mnemonic with
  | .hlt => name
  | .ldi => name ++ " R" ++ a ++ "," ++ b
  | .mul => name ++ " R" ++ a ++ ",R" ++ b
  | .prn | .push | .pop => name ++ " R" ++ a

def operandAt (source : ByteSource) (pc count slot : Nat) : Except Trap UInt8 :=
  if slot < count then source.read (pc + 1 + slot) else .ok 0

def decode (source : ByteSource) (pc : Nat) : Except Trap Instruction := do
  let opcode ← source.read pc
  match Descriptor.lookup opcode with
  | none => throw (.illegalInstruction opcode pc)
  | some descriptor =>
      let a ← operandAt source pc descriptor.operandCount 0
      let b ← operandAt source pc descriptor.operandCount 1
      return ⟨pc, descriptor, a, b⟩

theorem lookup_of_decode {source : ByteSource} {pc : Nat} {inst : Instruction}
    (decoded : decode source pc = .ok inst) :
    Descriptor.lookup inst.descriptor.opcode = some inst.descriptor ∧ inst.pc = pc := by
  unfold decode at decoded
  cases opcode : source.read pc with
  | error trap => simp [opcode, bind, Except.bind] at decoded
  | ok byte =>
      cases found : Descriptor.lookup byte with
      | none => simp [opcode, found, bind, Except.bind, throw, throwThe, MonadExceptOf.throw]
                  at decoded
      | some descriptor =>
          simp only [opcode, found, bind, Except.bind] at decoded
          split at decoded
          · simp at decoded
          · split at decoded
            · simp at decoded
            · simp only [pure, Except.pure, Except.ok.injEq] at decoded
              subst decoded
              exact ⟨Descriptor.opcode_of_lookup found ▸ found, rfl⟩

example :
    (decode (ByteSource.ofList 0 [0x82, 0, 8]) 0).toOption.map text = some "LDI R0,8" := by
  decide

end Instruction

end LS8
