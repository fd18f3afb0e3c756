import LS8.Proofs.Encoding
import LS8.Proofs.Reassembly
import LS8.Proofs.Relocation

set_option autoImplicit false

namespace LS8

/--
What the same bytes raise when they are decoded `offset` addresses further up. Where they end is
further up as well, while the memory of a machine always ends at the same address.
-/
def Trap.shifted (offset : Nat) : Trap → Trap
  | .outOfRange (.memory address) => .outOfRange (.memory (address + offset))
  | .illegalInstruction opcode pc => .illegalInstruction opcode (pc + offset)
  | trap => trap

namespace ByteSource

theorem read_shifted {left right : ByteSource} {address offset : Nat}
    (same : right (address + offset) = left address) :
    right.read (address + offset) = (left.read address).mapError (Trap.shifted offset) := by
  rw [read, read, same]
  cases left address <;> rfl

theorem ofList_append_left {base address : Nat} {bytes : List UInt8} {byte : UInt8}
    (held : ofList base bytes address = some byte) (others : List UInt8) :
    ofList base (bytes ++ others) address = some byte := by
  unfold ofList at held ⊢
  split at held
  next above =>
    rw [if_pos above, List.getElem?_append_left (List.getElem?_eq_some_iff.mp held).1, held]
  next => cases held

theorem ofList_append_right (before bytes : List UInt8) (address : Nat) :
    ofList 0 (before ++ bytes) (address + before.length) = ofList 0 bytes address := by
  rw [ofList_zero, ofList_zero, List.getElem?_append_right (Nat.le_add_left ..),
    Nat.add_sub_cancel]

theorem ofList_add (base offset : Nat) (bytes : List UInt8) (address : Nat) :
    ofList (base + offset) bytes (address + offset) = ofList base bytes address := by
  simp only [ofList, Nat.add_le_add_iff_right, Nat.add_sub_add_right]

end ByteSource

namespace Instruction

theorem operandAt_shifted {left right : ByteSource} {pc offset count slot : Nat}
    (same : ∀ address, right (address + offset) = left address) :
    operandAt right (pc + offset) count slot =
      (operandAt left pc count slot).mapError (Trap.shifted offset) := by
  have further : pc + offset + 1 + slot = pc + 1 + slot + offset := by omega
  by_cases used : slot < count
  · rw [operandAt_used used, operandAt_used used, further, ByteSource.read_shifted (same _)]
  · have unused := Nat.not_lt.mp used
    rw [operandAt_unused unused, operandAt_unused unused]
    rfl

theorem decode_shifted {left right : ByteSource} {offset : Nat}
    (same : ∀ address, right (address + offset) = left address) (pc : Nat) :
    decode right (pc + offset) =
      ((decode left pc).map (moved offset)).mapError (Trap.shifted offset) := by
  cases here : left pc with
  | none =>
      have missing := (same pc).trans here
      simp only [decode, ByteSource.read, here, missing]
      rfl
  | some opcode =>
      have there := (same pc).trans here
      cases known : Descriptor.lookup opcode with
      | none =>
          rw [decode_illegal here known, decode_illegal there known]
          rfl
      | some descriptor =>
          rw [decode_known here known, decode_known there known, operandAt_shifted same,
            operandAt_shifted same]
          cases operandAt left pc descriptor.operandCount 0 with
          | error trap => rfl
          | ok a => cases operandAt left pc descriptor.operandCount 1 <;> rfl

theorem decode_append (before bytes : List UInt8) (pc : Nat) :
    decode (ByteSource.ofList 0 (before ++ bytes)) (before.length + pc) =
      ((decode (ByteSource.ofList 0 bytes) pc).map (moved before.length)).mapError
        (Trap.shifted before.length) := by
  rw [Nat.add_comm]
  exact decode_shifted (ByteSource.ofList_append_right before bytes) pc

end Instruction

namespace ListingLine

def moved (offset : Nat) : ListingLine → ListingLine
  | .instruction inst => .instruction (inst.moved offset)
  | .data address byte => .data (address + offset) byte

theorem text_moved (offset : Nat) (line : ListingLine) :
    (line.moved offset).text =
      Numeral.hexUpper (line.address + offset) ++ ": " ++
        Text.column 8 (Numeral.hexBytes line.bytes) ++ "  " ++ line.content := by
  cases line <;> rfl

end ListingLine

theorem listingFrom_add (base offset : Nat) (bytes : List UInt8) :
    listingFrom (base + offset) bytes =
      (listingFrom base bytes).map (ListingLine.moved offset) := by
  generalize listed : listingFrom base bytes = lines
  induction lines generalizing base bytes with
  | nil => rw [listingFrom_eq_nil_iff.mp listed, listingFrom_nil, List.map_nil]
  | cons line rest ih =>
      have shifted := Instruction.decode_shifted (ByteSource.ofList_add base offset bytes) base
      have first := firstLine_of_listingFrom listed
      cases first with
      | @instruction inst decoded whole =>
          rw [decoded] at shifted
          rw [listingFrom_of_decode shifted, List.map_cons, ← ih _ _ rfl, Nat.add_right_comm]
          rfl
      | @data byte trap first failed =>
          obtain ⟨others, rfl⟩ := List.head?_eq_some_iff.mp (List.head?_eq_getElem?.trans first)
          rw [failed] at shifted
          rw [listingFrom_of_not_decode shifted, List.map_cons, ← ih _ _ rfl, Nat.add_right_comm]
          rfl

theorem listingFrom_append {base : Nat} {bytes : List UInt8}
    (whole : ∀ address byte, .data address byte ∈ listingFrom base bytes →
      Descriptor.lookup byte = none) (others : List UInt8) :
    listingFrom base (bytes ++ others) =
      listingFrom base bytes ++ listingFrom (base + bytes.length) others := by
  -- On the lines: the first one is the same in front of the others, and takes its bytes off.
  generalize listed : listingFrom base bytes = lines at whole ⊢
  induction lines generalizing base bytes with
  | nil => simp [listingFrom_eq_nil_iff.mp listed]
  | cons line rest ih =>
      have later : ∀ address byte, .data address byte ∈ rest → Descriptor.lookup byte = none :=
        fun address byte member => whole address byte (List.mem_cons_of_mem _ member)
      have first := firstLine_of_listingFrom listed
      cases first with
      | @instruction inst decoded inside =>
          have decoded' := Instruction.decode_mono
            (fun _ _ held => ByteSource.ofList_append_left held others) decoded
          have further : base + inst.width + (bytes.length - inst.width) = base + bytes.length := by
            omega
          rw [listingFrom_of_decode decoded', List.drop_append_of_le_length inside, ih rfl later,
            List.length_drop, further, List.cons_append]
      | @data byte trap first failed =>
          obtain ⟨tail, rfl⟩ := List.head?_eq_some_iff.mp (List.head?_eq_getElem?.trans first)
          have here : ByteSource.ofList base (byte :: (tail ++ others)) base = some byte := by
            simp [ByteSource.ofList]
          have failed' := Instruction.decode_illegal here (whole base byte List.mem_cons_self)
          have further : base + 1 + tail.length = base + (byte :: tail).length := by
            rw [List.length_cons]
            omega
          have behind := @ih (base + 1) tail rfl later
          rw [List.cons_append, listingFrom_of_not_decode failed', behind, further,
            List.cons_append]

def CutsNoInstruction (bytes : List UInt8) : Prop :=
  ∀ address byte, .data address byte ∈ listing bytes →
    byte ∉ instructionSet.map Descriptor.opcode

theorem listing_append {before : List UInt8} (whole : CutsNoInstruction before)
    (bytes : List UInt8) :
    listing (before ++ bytes) =
      listing before ++ (listing bytes).map (ListingLine.moved before.length) := by
  have unknown : ∀ address byte, .data address byte ∈ listingFrom 0 before →
      Descriptor.lookup byte = none := fun address byte member =>
    Descriptor.lookup_eq_none_iff.mpr (whole address byte member)
  rw [listing, listingFrom_append unknown, listingFrom_add]
  rfl

-- With two more bytes every opcode has its operands.
theorem lookup_of_data_completed {before : List UInt8} {address : Nat} {byte : UInt8}
    (listed : .data address byte ∈ listing before)
    (completed : .data address byte ∈ listing (before ++ List.replicate maxOperands 0)) :
    Descriptor.lookup byte = none := by
  obtain ⟨-, ⟨-, -⟩ | ⟨held, -⟩⟩ := firstLine_of_mem listed
  obtain ⟨-, ⟨-, -⟩ | ⟨first, failed⟩⟩ := firstLine_of_mem completed
  rw [ListingLine.address] at held first failed
  cases known : Descriptor.lookup byte with
  | none => rfl
  | some descriptor =>
      have inside : address < before.length := by
        rw [List.getElem?_drop, Nat.add_zero] at held
        exact (List.getElem?_eq_some_iff.mp held).1
      have here : ByteSource.ofList address
          ((before ++ List.replicate maxOperands 0).drop address) address = some byte := by
        rw [ByteSource.ofList, if_pos (Nat.le_refl _), Nat.sub_self, first]
      obtain ⟨slot, used, missing⟩ := Instruction.missing_of_decode_error here known failed
      have few := Descriptor.operandCount_le_of_lookup known
      rw [ByteSource.ofList_drop, if_pos (by omega), List.getElem?_eq_none_iff,
        List.length_append, List.length_replicate] at missing
      omega

theorem listing_append_iff {before : List UInt8} :
    (∀ bytes : List UInt8, listing (before ++ bytes) =
      listing before ++ (listing bytes).map (ListingLine.moved before.length)) ↔
        CutsNoInstruction before := by
  refine ⟨?_, listing_append⟩
  intro continues address byte listed
  have completed : .data address byte ∈ listing (before ++ List.replicate maxOperands 0) := by
    rw [continues]
    exact List.mem_append_left _ listed
  exact Descriptor.lookup_eq_none_iff.mp (lookup_of_data_completed listed completed)

theorem decoding_and_listing_local (before bytes : List UInt8) (pc : Nat) :
    (∀ inst, Instruction.decode (ByteSource.ofList 0 before) pc = .ok inst →
      ∀ others : List UInt8,
        (∀ offset < inst.width, others[pc + offset]? = before[pc + offset]?) →
        Instruction.decode (ByteSource.ofList 0 others) pc = .ok inst) ∧
    Instruction.decode (ByteSource.ofList 0 (before ++ bytes)) (before.length + pc) =
      ((Instruction.decode (ByteSource.ofList 0 bytes) pc).map
        (Instruction.moved before.length)).mapError (Trap.shifted before.length) ∧
    (CutsNoInstruction before →
      listing (before ++ bytes) =
        listing before ++ (listing bytes).map (ListingLine.moved before.length) ∧
      (listing (before ++ bytes)).map ListingLine.text =
        (listing before).map ListingLine.text ++ (listing bytes).map fun line =>
          Numeral.hexUpper (line.address + before.length) ++ ": " ++
            Text.column 8 (Numeral.hexBytes line.bytes) ++ "  " ++ line.content) := by
  refine ⟨?_, Instruction.decode_append before bytes pc, ?_⟩
  · intro inst decoded others agree
    apply Instruction.decode_of_agree decoded
    intro offset inside
    rw [ByteSource.ofList_zero, ByteSource.ofList_zero, agree offset inside]
  · intro whole
    have continued := listing_append_iff.mpr whole bytes
    refine ⟨continued, ?_⟩
    simp only [continued, List.map_append, List.map_map, Function.comp_def,
      ListingLine.text_moved]

-- LDI and a byte that is no opcode, then PUSH and the opcode of MUL without its operands.
theorem decoding_and_listing_local_before_cut_product :
    let before : List UInt8 := [0x82, 0, 8, 0xFF]
    let bytes : List UInt8 := [0x45, 1, 0xA2]
    let ldi : Instruction := ⟨0, Mnemonic.ldi.descriptor, 0, 8⟩
    Instruction.decode (ByteSource.ofList 0 before) 0 = .ok ldi ∧
    Instruction.decode (ByteSource.ofList 0 [0x82, 0, 8]) 0 = .ok ldi ∧
    Instruction.decode (ByteSource.ofList 0 (before ++ bytes)) (4 + 2) =
      .error (.outOfRange (.memory (3 + 4))) ∧
    CutsNoInstruction before ∧
    (listing (before ++ bytes)).map ListingLine.text =
      ["00: 82 00 08  LDI R0,8", "03: FF        .byte 0xff", "04: 45 01     PUSH R1",
        "06: A2        .byte 0xa2"] := by
  intro before bytes ldi
  have lines : listing before = [.instruction ldi, .data 3 0xFF] := by decide +kernel
  have whole : CutsNoInstruction before := by
    intro address byte member
    have entry : ListingLine.data address byte = .data 3 0xFF := by simpa [lines] using member
    cases entry
    decide
  have decoded : Instruction.decode (ByteSource.ofList 0 before) 0 = .ok ldi := by decide
  obtain ⟨again, -, listed⟩ := decoding_and_listing_local before bytes 0
  obtain ⟨-, behind, -⟩ := decoding_and_listing_local before bytes 2
  refine ⟨decoded, again ldi decoded _ (by decide), ?_, whole, ?_⟩
  · exact behind.trans (by decide)
  · exact (listed whole).2.trans (by decide +kernel)

end LS8
