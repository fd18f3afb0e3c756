import LS8.Proofs.Listing

set_option autoImplicit false

namespace LS8

namespace Descriptor

theorem lookup_eq_none_iff {opcode : UInt8} :
    lookup opcode = none ↔ opcode ∉ instructionSet.map Descriptor.opcode := by
  simp [lookup, List.find?_eq_none]

theorem operandCount_of_lookup {opcode : UInt8} {descriptor : Descriptor}
    (found : lookup opcode = some descriptor) :
    descriptor.operandCount = Opcode.operandCount opcode := by
  obtain ⟨mnemonic, rfl, rfl⟩ := lookup_eq_some_iff.mp found
  rfl

end Descriptor

theorem ByteSource.endsAt_ofList (bytes : List UInt8) :
    (ofList 0 bytes).EndsAt bytes.length := by
  intro address
  simp [← Option.isSome_iff_exists]

namespace Instruction

section Bytes

variable {bytes : List UInt8} {pc : Nat}

theorem decode_past_end (outside : bytes.length ≤ pc) :
    decode (ByteSource.ofList 0 bytes) pc = .error (.outOfRange (.memory pc)) := by
  rw [decode, ByteSource.read_outside (ByteSource.endsAt_ofList bytes) outside]
  rfl

theorem decode_drop (bytes : List UInt8) (pc : Nat) :
    decode (ByteSource.ofList 0 bytes) pc = decode (ByteSource.ofList pc (bytes.drop pc)) pc := by
  apply decode_congr
  intro offset _
  rw [ByteSource.ofList_drop, if_pos (Nat.le_add_right ..), ByteSource.ofList_zero]

theorem encode_eq_slice {inst : Instruction}
    (decoded : decode (ByteSource.ofList 0 bytes) pc = .ok inst) :
    inst.encode = (bytes.drop pc).take inst.width := by
  rw [decode_drop] at decoded
  exact encode_eq_take decoded

theorem decode_of_prefix {inst : Instruction} (listed : inst.descriptor ∈ instructionSet)
    (zero : inst.ZeroElsewhere) (placed : inst.encode <+: bytes.drop inst.pc) :
    decode (ByteSource.ofList 0 bytes) inst.pc = .ok inst := by
  apply decode_of_encode listed zero
  intro offset inside
  obtain ⟨rest, split⟩ := placed
  have few := Descriptor.operandCount_le_of_lookup (Descriptor.lookup_of_mem listed)
  rw [← length_encode inst few] at inside
  rw [ByteSource.ofList_zero, ← List.getElem?_drop, ← split, List.getElem?_append_left inside]

inductive Decoded (bytes : List UInt8) (pc : Nat) : Except Trap Instruction → Prop
  | pastEnd (outside : bytes.length ≤ pc) :
      Decoded bytes pc (.error (.outOfRange (.memory pc)))
  | illegal {opcode : UInt8} (here : bytes[pc]? = some opcode)
      (unknown : opcode ∉ instructionSet.map Descriptor.opcode) :
      Decoded bytes pc (.error (.illegalInstruction opcode pc))
  | cutOff {opcode : UInt8} (here : bytes[pc]? = some opcode)
      (listed : opcode ∈ instructionSet.map Descriptor.opcode)
      (short : bytes.length < pc + (1 + Opcode.operandCount opcode)) :
      Decoded bytes pc (.error (.outOfRange (.memory bytes.length)))
  | whole {inst : Instruction} (here : bytes[pc]? = some inst.descriptor.opcode)
      (listed : inst.descriptor ∈ instructionSet)
      (address : inst.pc = pc) (inside : pc + inst.width ≤ bytes.length)
      (encoded : inst.encode = (bytes.drop pc).take inst.width) (zero : inst.ZeroElsewhere) :
      Decoded bytes pc (.ok inst)

theorem decoded (bytes : List UInt8) (pc : Nat) :
    Decoded bytes pc (decode (ByteSource.ofList 0 bytes) pc) := by
  have ends := ByteSource.endsAt_ofList bytes
  cases here : bytes[pc]? with
  | none =>
      have outside := List.getElem?_eq_none_iff.mp here
      rw [decode_past_end outside]
      exact .pastEnd outside
  | some opcode =>
      have held : ByteSource.ofList 0 bytes pc = some opcode := by rw [ByteSource.ofList_zero, here]
      cases found : Descriptor.lookup opcode with
      | none =>
          rw [decode_illegal held found]
          exact .illegal here (Descriptor.lookup_eq_none_iff.mp found)
      | some descriptor =>
          have count := Descriptor.operandCount_of_lookup found
          have member := List.mem_of_find?_eq_some found
          obtain rfl := Descriptor.opcode_of_lookup found
          by_cases inside : pc + descriptor.width ≤ bytes.length
          · have reached := decode_inside ends held found inside
            have encoded := encode_eq_slice reached
            have zero := zeroElsewhere_of_decode reached
            rw [reached]
            exact .whole here member rfl inside encoded zero
          · have short := Nat.not_le.mp inside
            rw [decode_outside ends held found short]
            rw [Descriptor.width, count] at short
            exact .cutOff here (List.mem_map_of_mem member) short

end Bytes

theorem decode_exact (bytes : List UInt8) (pc : Nat) :
    let result := decode (ByteSource.ofList 0 bytes) pc
    (result = .error (.outOfRange (.memory pc)) ↔ bytes.length ≤ pc) ∧
    (∀ opcode, bytes[pc]? = some opcode →
      let width := 1 + Opcode.operandCount opcode
      (result = .error (.illegalInstruction opcode pc) ↔
        opcode ∉ instructionSet.map Descriptor.opcode) ∧
      (opcode ∈ instructionSet.map Descriptor.opcode →
        (result = .error (.outOfRange (.memory bytes.length)) ↔ bytes.length < pc + width) ∧
        (pc + width ≤ bytes.length →
          ∃ inst, result = .ok inst ∧ inst.pc = pc ∧ inst.width = width ∧
            inst.descriptor ∈ instructionSet ∧ inst.ZeroElsewhere ∧
            inst.descriptor.opcode :: inst.operands = (bytes.drop pc).take width))) ∧
    (∀ inst : Instruction, inst.descriptor ∈ instructionSet → inst.ZeroElsewhere → inst.pc = pc →
      inst.encode <+: bytes.drop pc → result = .ok inst) := by
  intro result
  have seen : Decoded bytes pc result := decoded bytes pc
  refine ⟨?_, ?_, ?_⟩
  · generalize result = reached at seen
    cases seen with
    | pastEnd outside => simp [outside]
    | illegal here unknown =>
        have inside := (List.getElem?_eq_some_iff.mp here).1
        simp [inside]
    | cutOff here listed short =>
        have inside := (List.getElem?_eq_some_iff.mp here).1
        simp only [Except.error.injEq, Trap.outOfRange.injEq, Location.memory.injEq]
        omega
    | whole here listed address inside encoded zero =>
        have inside := (List.getElem?_eq_some_iff.mp here).1
        simp [inside]
  · intro opcode here width
    generalize result = reached at seen
    cases seen with
    | pastEnd outside => simp [List.getElem?_eq_none outside] at here
    | illegal held unknown =>
        obtain rfl := Option.some.inj (held.symm.trans here)
        exact ⟨iff_of_true rfl unknown, fun listed => absurd listed unknown⟩
    | cutOff held listed short =>
        obtain rfl := Option.some.inj (held.symm.trans here)
        refine ⟨iff_of_false nofun (not_not_intro listed), ?_⟩
        intro _
        exact ⟨iff_of_true rfl short, fun inside => absurd inside (Nat.not_le.mpr short)⟩
    | @whole inst held listed address inside encoded zero =>
        obtain rfl := Option.some.inj (held.symm.trans here)
        have count := Descriptor.operandCount_of_lookup (Descriptor.lookup_of_mem listed)
        have wide : inst.width = width := congrArg (1 + ·) count
        rw [wide] at inside encoded
        refine ⟨iff_of_false nofun (not_not_intro (List.mem_map_of_mem listed)), ?_⟩
        intro _
        refine ⟨iff_of_false nofun (Nat.not_lt.mpr inside), ?_⟩
        intro _
        exact ⟨inst, rfl, address, wide, listed, zero, encoded⟩
  · rintro inst listed zero rfl placed
    exact decode_of_prefix listed zero placed

-- PRN is there as a whole, no opcode is 0xFF, and the string ends before the last operand of MUL.
theorem decode_exact_up_to_cut_product :
    let bytes : List UInt8 := [0x47, 3, 0xFF, 0xA2, 1]
    let source := ByteSource.ofList 0 bytes
    decode source 0 = .ok ⟨0, Mnemonic.prn.descriptor, 3, 0⟩ ∧
    decode source 2 = .error (.illegalInstruction 0xFF 2) ∧
    decode source 3 = .error (.outOfRange (.memory 5)) ∧
    decode source 9 = .error (.outOfRange (.memory 9)) := by
  intro bytes source
  obtain ⟨-, -, there⟩ := decode_exact bytes 0
  obtain ⟨-, unknown, -⟩ := decode_exact bytes 2
  obtain ⟨-, known, -⟩ := decode_exact bytes 3
  obtain ⟨outside, -, -⟩ := decode_exact bytes 9
  refine ⟨?_, ?_, ?_, ?_⟩
  · exact there _ (by decide) ⟨nofun, fun _ => rfl⟩ rfl (by decide)
  · exact (unknown 0xFF rfl).1.mpr (by decide)
  · exact ((known 0xA2 rfl).2 (by decide)).1.mpr (by decide)
  · exact outside.mpr (by decide)

end Instruction

end LS8
