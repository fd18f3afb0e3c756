import LS8.Isa.Listing
import LS8.Proofs.Decoding

set_option autoImplicit false

namespace LS8

theorem ByteSource.ofList_drop (image : List UInt8) (base address : Nat) :
    ofList base (image.drop base) address = if base ≤ address then image[address]? else none := by
  unfold ofList
  split
  next above => rw [List.getElem?_drop, Nat.add_sub_cancel' above]
  next => rfl

inductive FirstLine (base : Nat) (bytes : List UInt8) : ListingLine → List ListingLine → Prop
  | instruction {inst : Instruction}
      (decoded : Instruction.decode (ByteSource.ofList base bytes) base = .ok inst)
      (whole : inst.width ≤ bytes.length) :
      FirstLine base bytes (.instruction inst)
        (listingFrom (base + inst.width) (bytes.drop inst.width))
  | data {byte : UInt8} {trap : Trap} (first : bytes[0]? = some byte)
      (failed : Instruction.decode (ByteSource.ofList base bytes) base = .error trap) :
      FirstLine base bytes (.data base byte) (listingFrom (base + 1) (bytes.drop 1))

theorem width_le_of_decode {base : Nat} {bytes : List UInt8} {inst : Instruction}
    (decoded : Instruction.decode (ByteSource.ofList base bytes) base = .ok inst) :
    inst.width ≤ bytes.length := by
  have ahead := inst.width_pos
  obtain ⟨byte, last⟩ := Instruction.byte_of_decode decoded (Nat.sub_one_lt_of_lt ahead)
  simp only [ByteSource.ofList, if_pos (Nat.le_add_right _ _), Nat.add_sub_cancel_left] at last
  have inside := (List.getElem?_eq_some_iff.mp last).1
  omega

@[simp]
theorem listingFrom_nil (base : Nat) : listingFrom base [] = [] := by
  rw [listingFrom]

theorem listingFrom_of_decode {base : Nat} {bytes : List UInt8} {inst : Instruction}
    (decoded : Instruction.decode (ByteSource.ofList base bytes) base = .ok inst) :
    listingFrom base bytes =
      .instruction inst :: listingFrom (base + inst.width) (bytes.drop inst.width) := by
  have ahead := inst.width_pos
  have whole := width_le_of_decode decoded
  cases bytes with
  | nil =>
      simp only [List.length_nil] at whole
      omega
  | cons byte rest =>
      rw [listingFrom]
      simp only [decoded]
      rw [Instruction.width, Descriptor.width, Nat.add_comm 1, List.drop_succ_cons]

theorem listingFrom_of_not_decode {base : Nat} {byte : UInt8} {rest : List UInt8} {trap : Trap}
    (failed : Instruction.decode (ByteSource.ofList base (byte :: rest)) base = .error trap) :
    listingFrom base (byte :: rest) = .data base byte :: listingFrom (base + 1) rest := by
  rw [listingFrom]
  simp only [failed]

theorem listingFrom_eq_nil_iff {base : Nat} {bytes : List UInt8} :
    listingFrom base bytes = [] ↔ bytes = [] := by
  cases bytes with
  | nil => simp
  | cons byte rest =>
      cases decoded : Instruction.decode (ByteSource.ofList base (byte :: rest)) base with
      | ok inst => simp [listingFrom_of_decode decoded]
      | error trap => simp [listingFrom_of_not_decode decoded]

theorem firstLine_of_listingFrom {base : Nat} {bytes : List UInt8} {line : ListingLine}
    {rest : List ListingLine} (listed : listingFrom base bytes = line :: rest) :
    FirstLine base bytes line rest := by
  cases bytes with
  | nil => simp at listed
  | cons byte others =>
      cases decoded : Instruction.decode (ByteSource.ofList base (byte :: others)) base with
      | ok inst =>
          rw [listingFrom_of_decode decoded] at listed
          cases listed
          exact .instruction decoded (width_le_of_decode decoded)
      | error trap =>
          rw [listingFrom_of_not_decode decoded] at listed
          cases listed
          exact .data rfl decoded

theorem FirstLine.address {base : Nat} {bytes : List UInt8} {line : ListingLine}
    {rest : List ListingLine} (first : FirstLine base bytes line rest) : line.address = base := by
  cases first with
  | instruction decoded whole => exact (Instruction.lookup_of_decode decoded).2
  | data first failed => rfl

theorem length_bytes_instruction {base : Nat} {bytes : List UInt8} {inst : Instruction}
    (decoded : Instruction.decode (ByteSource.ofList base bytes) base = .ok inst) :
    (ListingLine.instruction inst).bytes.length = inst.width :=
  inst.length_encode
    (Descriptor.operandCount_le_of_lookup (Instruction.lookup_of_decode decoded).1)

theorem encode_eq_take {base : Nat} {bytes : List UInt8} {inst : Instruction}
    (decoded : Instruction.decode (ByteSource.ofList base bytes) base = .ok inst) :
    inst.encode = bytes.take inst.width := by
  have counted : inst.encode.length = inst.width := length_bytes_instruction decoded
  apply List.ext_getElem?
  intro offset
  by_cases inside : offset < inst.width
  · have here := Instruction.encode_of_decode decoded inside
    rw [ByteSource.ofList, if_pos (Nat.le_add_right ..), Nat.add_sub_cancel_left] at here
    rw [List.getElem?_take_of_lt inside, here]
  · rw [List.getElem?_take, if_neg inside]
    exact List.getElem?_eq_none (by omega)

theorem FirstLine.cut {base : Nat} {bytes : List UInt8} {line : ListingLine}
    {rest : List ListingLine} (first : FirstLine base bytes line rest) :
    line.bytes.length ≤ bytes.length ∧ line.bytes = bytes.take line.bytes.length ∧
      rest = listingFrom (base + line.bytes.length) (bytes.drop line.bytes.length) := by
  cases first with
  | @instruction inst decoded whole =>
      rw [length_bytes_instruction decoded]
      exact ⟨whole, encode_eq_take decoded, rfl⟩
  | data first failed =>
      cases bytes with
      | nil => cases first
      | cons byte others =>
          cases first
          exact ⟨Nat.succ_le_succ (Nat.zero_le _), rfl, rfl⟩

theorem FirstLine.width {base : Nat} {bytes : List UInt8} {line : ListingLine}
    {rest : List ListingLine} (first : FirstLine base bytes line rest) :
    1 ≤ line.bytes.length ∧ line.bytes.length ≤ 1 + maxOperands := by
  cases first with
  | @instruction inst decoded whole =>
      have few := Descriptor.operandCount_le_of_lookup (Instruction.lookup_of_decode decoded).1
      rw [length_bytes_instruction decoded]
      exact ⟨Nat.le_add_right .., Nat.add_le_add_left few 1⟩
  | data first failed => exact ⟨Nat.le_refl _, Nat.le_add_right 1 maxOperands⟩

theorem listingFrom_suffix {base : Nat} {bytes : List UInt8} {before after : List ListingLine}
    {line : ListingLine} (split : listingFrom base bytes = before ++ line :: after) :
    (before.flatMap ListingLine.bytes).length ≤ bytes.length ∧
      line.address = base + (before.flatMap ListingLine.bytes).length ∧
      line :: after =
        listingFrom line.address (bytes.drop (before.flatMap ListingLine.bytes).length) := by
  induction before generalizing base bytes with
  | nil =>
      rw [List.nil_append] at split
      have here := (firstLine_of_listingFrom split).address
      refine ⟨Nat.zero_le _, here, ?_⟩
      rw [here, List.flatMap_nil, List.length_nil, List.drop_zero, split]
  | cons head before ih =>
      rw [List.cons_append] at split
      obtain ⟨inside, -, rest⟩ := (firstLine_of_listingFrom split).cut
      obtain ⟨short, address, listed⟩ := ih rest.symm
      rw [List.length_drop] at short
      rw [List.drop_drop] at listed
      rw [List.flatMap_cons, List.length_append]
      exact ⟨by omega, by omega, listed⟩

theorem flatMap_bytes_listingFrom (base : Nat) (bytes : List UInt8) :
    (listingFrom base bytes).flatMap ListingLine.bytes = bytes := by
  generalize listed : listingFrom base bytes = lines
  induction lines generalizing base bytes with
  | nil => exact (listingFrom_eq_nil_iff.mp listed).symm
  | cons line rest ih =>
      obtain ⟨-, taken, left⟩ := (firstLine_of_listingFrom listed).cut
      rw [List.flatMap_cons, ih _ _ left.symm, taken, List.length_take,
        Nat.min_eq_left (firstLine_of_listingFrom listed).cut.1]
      exact List.take_append_drop ..

theorem address_of_listing {image : List UInt8} {before after : List ListingLine}
    {line : ListingLine} (split : listing image = before ++ line :: after) :
    line.address = (before.flatMap ListingLine.bytes).length := by
  rw [(listingFrom_suffix split).2.1, Nat.zero_add]

theorem listing_suffix {image : List UInt8} {before after : List ListingLine} {line : ListingLine}
    (split : listing image = before ++ line :: after) :
    line.address ≤ image.length ∧
      line :: after = listingFrom line.address (image.drop line.address) := by
  obtain ⟨inside, -, listed⟩ := listingFrom_suffix split
  rw [← address_of_listing split] at inside listed
  exact ⟨inside, listed⟩

end LS8
