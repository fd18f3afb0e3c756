import LS8.Isa.Instruction

set_option autoImplicit false

namespace LS8

theorem Mnemonic.operandCount_descriptor (mnemonic : Mnemonic) :
    mnemonic.descriptor.operandCount =
      match mnemonic with
      | .hlt => 0
      | .ldi | .mul => 2
      | .prn | .push | .pop => 1 := by
  cases mnemonic <;> decide

theorem Mnemonic.descriptor_mem (mnemonic : Mnemonic) : mnemonic.descriptor ∈ instructionSet :=
  List.mem_map_of_mem (by cases mnemonic <;> decide)

theorem Descriptor.lookup_of_mem {descriptor : Descriptor}
    (listed : descriptor ∈ instructionSet) : lookup descriptor.opcode = some descriptor := by
  obtain ⟨mnemonic, -, rfl⟩ := List.mem_map.mp listed
  exact lookup_opcode mnemonic

namespace ByteSource

def EndsAt (source : ByteSource) (limit : Nat) : Prop :=
  ∀ address, (∃ byte, source address = some byte) ↔ address < limit

theorem read_outside {source : ByteSource} {limit address : Nat} (ends : source.EndsAt limit)
    (outside : limit ≤ address) : source.read address = .error (.outOfRange (.memory address)) := by
  cases held : source address with
  | none => rw [read, held]
  | some byte => exact absurd ((ends address).mp ⟨byte, held⟩) (Nat.not_lt.mpr outside)

end ByteSource

namespace Instruction

theorem decode_congr {left right : ByteSource} {pc : Nat}
    (same : ∀ offset ≤ maxOperands, left (pc + offset) = right (pc + offset)) :
    decode left pc = decode right pc := by
  have opcode : left.read pc = right.read pc := by
    simp only [ByteSource.read]
    rw [← Nat.add_zero pc, same 0 (Nat.zero_le _)]
  have operand (count slot : Nat) (few : slot < maxOperands) :
      operandAt left pc count slot = operandAt right pc count slot := by
    simp only [operandAt, ByteSource.read, Nat.add_assoc]
    rw [same (1 + slot) (by omega)]
  simp only [decode, opcode, operand _ 0 (by decide), operand _ 1 (by decide)]

theorem decode_illegal {source : ByteSource} {pc : Nat} {opcode : UInt8}
    (here : source pc = some opcode) (unknown : Descriptor.lookup opcode = none) :
    decode source pc = .error (.illegalInstruction opcode pc) := by
  rw [decode, ByteSource.read_eq_ok_iff.mpr here]
  simp only [bind, Except.bind, unknown]
  rfl

theorem decode_known {source : ByteSource} {pc : Nat} {opcode : UInt8} {descriptor : Descriptor}
    (here : source pc = some opcode) (known : Descriptor.lookup opcode = some descriptor) :
    decode source pc =
      match operandAt source pc descriptor.operandCount 0,
          operandAt source pc descriptor.operandCount 1 with
      | .ok a, .ok b => .ok ⟨pc, descriptor, a, b⟩
      | .error trap, _ => .error trap
      | .ok _, .error trap => .error trap := by
  rw [decode, ByteSource.read_eq_ok_iff.mpr here]
  simp only [bind, Except.bind, known]
  cases operandAt source pc descriptor.operandCount 0 with
  | error trap => rfl
  | ok a => cases operandAt source pc descriptor.operandCount 1 <;> rfl

theorem decode_eq_ok {source : ByteSource} {pc : Nat} {inst : Instruction}
    (decoded : decode source pc = .ok inst) :
    source pc = some inst.descriptor.opcode ∧
      operandAt source pc inst.descriptor.operandCount 0 = .ok inst.a ∧
      operandAt source pc inst.descriptor.operandCount 1 = .ok inst.b := by
  cases here : source pc with
  | none => simp [decode, ByteSource.read, here, bind, Except.bind] at decoded
  | some opcode =>
      cases known : Descriptor.lookup opcode with
      | none =>
          rw [decode_illegal here known] at decoded
          cases decoded
      | some descriptor =>
          rw [decode_known here known] at decoded
          split at decoded
          next a b first second =>
            cases decoded
            exact ⟨congrArg some (Descriptor.opcode_of_lookup known).symm, first, second⟩
          next => cases decoded
          next => cases decoded

theorem operandAt_used {source : ByteSource} {pc count slot : Nat} (used : slot < count) :
    operandAt source pc count slot = source.read (pc + 1 + slot) := by
  simp [operandAt, used]

theorem operandAt_unused {source : ByteSource} {pc count slot : Nat} (unused : count ≤ slot) :
    operandAt source pc count slot = .ok 0 := by
  simp [operandAt, Nat.not_lt.mpr unused]

theorem encode_of_decode {source : ByteSource} {pc : Nat} {inst : Instruction}
    (decoded : decode source pc = .ok inst) {offset : Nat} (inside : offset < inst.width) :
    source (pc + offset) = inst.encode[offset]? := by
  have few := Descriptor.operandCount_le_of_lookup (lookup_of_decode decoded).1
  obtain ⟨opcode, first, second⟩ := decode_eq_ok decoded
  simp only [width, Descriptor.width] at inside
  simp only [maxOperands] at few
  have near : offset = 0 ∨ offset = 1 ∨ offset = 2 := by omega
  rcases near with rfl | rfl | rfl
  · exact opcode
  · rw [operandAt_used (by omega), ByteSource.read_eq_ok_iff] at first
    rw [first, encode, operands, List.getElem?_cons_succ, List.getElem?_take_of_lt (by omega)]
    rfl
  · rw [operandAt_used (by omega), ByteSource.read_eq_ok_iff] at second
    rw [second, encode, operands, List.getElem?_cons_succ, List.getElem?_take_of_lt (by omega)]
    rfl

def ZeroElsewhere (inst : Instruction) : Prop :=
  (inst.descriptor.operandCount < 1 → inst.a = 0) ∧ (inst.descriptor.operandCount < 2 → inst.b = 0)

theorem zeroElsewhere_of_decode {source : ByteSource} {pc : Nat} {inst : Instruction}
    (decoded : decode source pc = .ok inst) : inst.ZeroElsewhere := by
  obtain ⟨-, first, second⟩ := decode_eq_ok decoded
  constructor
  · intro none
    rw [operandAt_unused (Nat.lt_succ_iff.mp none)] at first
    exact (Except.ok.inj first).symm
  · intro few
    rw [operandAt_unused (Nat.lt_succ_iff.mp few)] at second
    exact (Except.ok.inj second).symm

theorem decode_of_encode {source : ByteSource} {inst : Instruction}
    (listed : inst.descriptor ∈ instructionSet) (zero : inst.ZeroElsewhere)
    (placed : ∀ offset < inst.width, source (inst.pc + offset) = inst.encode[offset]?) :
    decode source inst.pc = .ok inst := by
  have known := Descriptor.lookup_of_mem listed
  have opcode : source inst.pc = some inst.descriptor.opcode := placed 0 inst.width_pos
  -- An operand that is encoded stands behind the opcode, and any other one is zero.
  have operand (slot : Nat) {value : UInt8} (held : [inst.a, inst.b][slot]? = some value)
      (otherwise : inst.descriptor.operandCount ≤ slot → value = 0) :
      operandAt source inst.pc inst.descriptor.operandCount slot = .ok value := by
    by_cases used : slot < inst.descriptor.operandCount
    · have there := placed (1 + slot) (Nat.add_lt_add_left used 1)
      rw [operandAt_used used, ByteSource.read_eq_ok_iff, Nat.add_assoc, there, Nat.add_comm,
        encode, List.getElem?_cons_succ, operands, List.getElem?_take_of_lt used, held]
    · have unused := Nat.not_lt.mp used
      rw [operandAt_unused unused, otherwise unused]
  have first := operand 0 rfl fun none => zero.1 (Nat.lt_succ_iff.mpr none)
  have second := operand 1 rfl fun few => zero.2 (Nat.lt_succ_iff.mpr few)
  rw [decode_known opcode known, first, second]

theorem byte_of_decode {source : ByteSource} {pc : Nat} {inst : Instruction}
    (decoded : decode source pc = .ok inst) {offset : Nat} (inside : offset < inst.width) :
    ∃ byte, source (pc + offset) = some byte := by
  have few := Descriptor.operandCount_le_of_lookup (lookup_of_decode decoded).1
  rw [encode_of_decode decoded inside]
  rw [← length_encode inst few] at inside
  exact ⟨_, List.getElem?_eq_getElem inside⟩

theorem operandAt_mono {left right : ByteSource} {pc count slot : Nat} {value : UInt8}
    (extended : ∀ address byte, left address = some byte → right address = some byte)
    (read : operandAt left pc count slot = .ok value) :
    operandAt right pc count slot = .ok value := by
  by_cases used : slot < count
  · rw [operandAt_used used, ByteSource.read_eq_ok_iff] at read ⊢
    exact extended _ _ read
  · rw [operandAt_unused (Nat.not_lt.mp used)] at read ⊢
    exact read

theorem decode_mono {left right : ByteSource} {pc : Nat} {inst : Instruction}
    (extended : ∀ address byte, left address = some byte → right address = some byte)
    (decoded : decode left pc = .ok inst) : decode right pc = .ok inst := by
  obtain ⟨known, here⟩ := lookup_of_decode decoded
  obtain ⟨opcode, first, second⟩ := decode_eq_ok decoded
  rw [decode_known (extended _ _ opcode) known, operandAt_mono extended first,
    operandAt_mono extended second, ← here]

theorem decode_of_agree {left right : ByteSource} {pc : Nat} {inst : Instruction}
    (decoded : decode left pc = .ok inst)
    (agree : ∀ offset < inst.width, right (pc + offset) = left (pc + offset)) :
    decode right pc = .ok inst := by
  obtain ⟨known, here⟩ := lookup_of_decode decoded
  obtain ⟨opcode, first, second⟩ := decode_eq_ok decoded
  have operand (slot : Nat) : operandAt right pc inst.descriptor.operandCount slot =
      operandAt left pc inst.descriptor.operandCount slot := by
    by_cases used : slot < inst.descriptor.operandCount
    · have inside : 1 + slot < inst.width := Nat.add_lt_add_left used 1
      simp only [operandAt_used used, ByteSource.read, Nat.add_assoc, agree _ inside]
    · simp only [operandAt_unused (Nat.not_lt.mp used)]
  rw [← Nat.add_zero pc, ← agree 0 inst.width_pos, Nat.add_zero] at opcode
  rw [decode_known opcode known, operand, operand, first, second, ← here]

-- Where an opcode is known, decoding fails for want of an operand only.
theorem missing_of_decode_error {source : ByteSource} {pc : Nat} {opcode : UInt8}
    {descriptor : Descriptor} {trap : Trap} (here : source pc = some opcode)
    (known : Descriptor.lookup opcode = some descriptor)
    (failed : decode source pc = .error trap) :
    ∃ slot < descriptor.operandCount, source (pc + 1 + slot) = none := by
  have missing (slot : Nat) (cause : Trap)
      (unread : operandAt source pc descriptor.operandCount slot = .error cause) :
      slot < descriptor.operandCount ∧ source (pc + 1 + slot) = none := by
    by_cases used : slot < descriptor.operandCount
    · rw [operandAt_used used, ByteSource.read] at unread
      cases held : source (pc + 1 + slot) with
      | none => exact ⟨used, rfl⟩
      | some byte => simp [held] at unread
    · rw [operandAt_unused (Nat.not_lt.mp used)] at unread
      cases unread
  rw [decode_known here known] at failed
  split at failed
  next => cases failed
  next cause unread => exact ⟨0, missing 0 _ unread⟩
  next unread => exact ⟨1, missing 1 _ unread⟩

def operandByte (source : ByteSource) (pc count slot : Nat) : UInt8 :=
  if slot < count then (source (pc + 1 + slot)).getD 0 else 0

section Ending

variable {source : ByteSource} {limit pc : Nat} {opcode : UInt8} {descriptor : Descriptor}

theorem operandAt_inside (ends : source.EndsAt limit) {count slot : Nat}
    (inside : slot < count → pc + 1 + slot < limit) :
    operandAt source pc count slot = .ok (operandByte source pc count slot) := by
  by_cases used : slot < count
  · obtain ⟨byte, held⟩ := (ends _).mpr (inside used)
    rw [operandAt_used used, ByteSource.read_eq_ok_iff, operandByte, if_pos used, held]
    rfl
  · rw [operandAt_unused (Nat.not_lt.mp used), operandByte, if_neg used]

theorem operandAt_outside (ends : source.EndsAt limit) {count slot : Nat} (used : slot < count)
    (last : pc + 1 + slot = limit) :
    operandAt source pc count slot = .error (.outOfRange (.memory limit)) := by
  rw [operandAt_used used, last, ByteSource.read_outside ends (Nat.le_refl _)]

theorem decode_inside (ends : source.EndsAt limit) (here : source pc = some opcode)
    (known : Descriptor.lookup opcode = some descriptor)
    (inside : pc + descriptor.width ≤ limit) :
    decode source pc =
      .ok ⟨pc, descriptor, operandByte source pc descriptor.operandCount 0,
        operandByte source pc descriptor.operandCount 1⟩ := by
  simp only [Descriptor.width] at inside
  rw [decode_known here known, operandAt_inside ends (by omega),
    operandAt_inside ends (by omega)]

theorem decode_outside (ends : source.EndsAt limit) (here : source pc = some opcode)
    (known : Descriptor.lookup opcode = some descriptor)
    (outside : limit < pc + descriptor.width) :
    decode source pc = .error (.outOfRange (.memory limit)) := by
  have address : pc < limit := (ends pc).mp ⟨opcode, here⟩
  have few := Descriptor.operandCount_le_of_lookup known
  simp only [Descriptor.width, maxOperands] at few outside
  -- The source ends right behind the opcode or right behind the first operand.
  by_cases first : pc + 1 = limit
  · rw [decode_known here known, operandAt_outside ends (by omega) first]
  · rw [decode_known here known, operandAt_inside ends (by omega),
      operandAt_outside ends (by omega) (by omega)]

end Ending

theorem eq_of_decode {source : ByteSource} {pc : Nat} {inst : Instruction}
    (decoded : decode source pc = .ok inst) :
    ∃ (mnemonic : Mnemonic) (a b : UInt8), inst = ⟨pc, mnemonic.descriptor, a, b⟩ := by
  obtain ⟨known, here⟩ := lookup_of_decode decoded
  obtain ⟨mnemonic, -, entry⟩ := Descriptor.lookup_eq_some_iff.mp known
  exact ⟨mnemonic, inst.a, inst.b, by rw [← here, ← entry]⟩

end Instruction

end LS8
