import LS8.Proofs.Listing
import LS8.Proofs.Numerals

set_option autoImplicit false

namespace LS8

namespace Reassembly

open Numeral

def register? : List Char → Option UInt8
  | 'R' :: index => readByte? decimalDigits index
  | _ => none

def datum? : List Char → Option UInt8
  | '0' :: 'x' :: digits => readByte? hexDigits digits
  | _ => none

def statement? (name : String) (operands : List (List Char)) : Option (List UInt8) :=
  match name, operands with
  | "HLT", [] => some [0x01]
  | "LDI", [a, b] => do return [0x82, ← register? a, ← readByte? decimalDigits b]
  | "PRN", [a] => do return [0x47, ← register? a]
  | "MUL", [a, b] => do return [0xA2, ← register? a, ← register? b]
  | "PUSH", [a] => do return [0x45, ← register? a]
  | "POP", [a] => do return [0x46, ← register? a]
  | ".byte", [a] => do return [← datum? a]
  | _, _ => none

def reassemble? (content : List Char) : Option (List UInt8) :=
  match content.splitOn ' ' with
  | [name] => statement? (String.ofList name) []
  | [name, operands] => statement? (String.ofList name) (operands.splitOn ',')
  | _ => none

def image? (contents : List String) : Option (List UInt8) :=
  (contents.mapM fun text => reassemble? text.toList).map List.flatten

structure Row where
  address : Nat
  bytes : List UInt8
  content : String
  deriving DecidableEq, Repr

def address? (digits : List Char) : Option Nat :=
  if 2 ≤ digits.length then read? upperHexDigits digits else none

def pair? (digits : List Char) : Option UInt8 :=
  if digits.length = 2 then readByte? upperHexDigits digits else none

def hexColumn? (column : List Char) : Option (List UInt8) :=
  ((column.splitOn ' ').filter fun digits => !digits.isEmpty).mapM pair?

def row? (text : List Char) : Option Row :=
  match text.dropWhile (fun c => c != ':') with
  | ':' :: ' ' :: rest =>
      match rest.drop 8 with
      | ' ' :: ' ' :: content => do
          return ⟨← address? (text.takeWhile fun c => c != ':'), ← hexColumn? (rest.take 8),
            String.ofList content⟩
      | _ => none
  | _ => none

example : reassemble? "MUL R0,R12".toList = some [0xA2, 0, 12] ∧
    reassemble? "PRN 12".toList = none ∧
    row? "0A: 45 00     PUSH R0".toList = some ⟨10, [0x45, 0], "PUSH R0"⟩ := by
  decide +kernel

section Content

theorem readByte?_decimal (byte : UInt8) :
    readByte? decimalDigits (decimal byte.toNat).toList = some byte :=
  readByte?_of_read? (read?_decimal byte.toNat)

theorem readByte?_hex (byte : UInt8) :
    readByte? hexDigits (hex byte.toNat).toList = some byte :=
  readByte?_of_read? (read?_hex byte.toNat)

theorem not_mem_decimal {c : Char} (other : c ∉ decimalDigits) (n : Nat) :
    c ∉ (decimal n).toList :=
  not_mem_of_read? (read?_decimal n) other

theorem not_mem_hex {c : Char} (other : c ∉ hexDigits) (n : Nat) : c ∉ (hex n).toList :=
  not_mem_of_read? (read?_hex n) other

theorem reassemble?_of_split {name : String} {operands : List Char} (bare : ' ' ∉ name.toList)
    (unbroken : ' ' ∉ operands) :
    reassemble? (name.toList ++ ' ' :: operands) = statement? name (operands.splitOn ',') := by
  rw [reassemble?, List.splitOn_append_cons_self_of_not_mem bare,
    List.splitOn_eq_singleton unbroken]
  simp only [String.ofList_toList]

theorem reassemble?_one {name : String} (bare : ' ' ∉ name.toList) {operand : List Char}
    (unbroken : ' ' ∉ operand) (whole : ',' ∉ operand) :
    reassemble? (name.toList ++ ' ' :: operand) = statement? name [operand] := by
  rw [reassemble?_of_split bare unbroken, List.splitOn_eq_singleton whole]

theorem reassemble?_two {name : String} (bare : ' ' ∉ name.toList) {first second : List Char}
    (unbroken : ' ' ∉ first ∧ ' ' ∉ second) (whole : ',' ∉ first ∧ ',' ∉ second) :
    reassemble? (name.toList ++ ' ' :: (first ++ ',' :: second)) =
      statement? name [first, second] := by
  rw [reassemble?_of_split bare (by simp [unbroken]),
    List.splitOn_append_cons_self_of_not_mem whole.1, List.splitOn_eq_singleton whole.2]

def registerText (index : UInt8) : List Char :=
  'R' :: (decimal index.toNat).toList

theorem not_mem_register {c : Char} (other : c ∉ 'R' :: decimalDigits) (index : UInt8) :
    c ∉ registerText index := by
  simp only [registerText, List.mem_cons, not_or] at other ⊢
  exact ⟨other.1, not_mem_decimal other.2 _⟩

theorem register?_registerText (index : UInt8) : register? (registerText index) = some index :=
  readByte?_decimal index

theorem toList_text (inst : Instruction) :
    inst.text.toList = inst.mnemonic.name.toList ++
      match inst.mnemonic with
      | .hlt => []
      | .ldi => ' ' :: (registerText inst.a ++ ',' :: (decimal inst.b.toNat).toList)
      | .mul => ' ' :: (registerText inst.a ++ ',' :: registerText inst.b)
      | .prn | .push | .pop => ' ' :: registerText inst.a := by
  unfold Instruction.text registerText
  cases inst.mnemonic <;> simp

theorem reassemble?_instruction (pc : Nat) (mnemonic : Mnemonic) (a b : UInt8) :
    reassemble? (Instruction.mk pc mnemonic.descriptor a b).text.toList =
      some (Instruction.mk pc mnemonic.descriptor a b).encode := by
  have blank (index : UInt8) : ' ' ∉ registerText index := not_mem_register (by decide) index
  have comma (index : UInt8) : ',' ∉ registerText index := not_mem_register (by decide) index
  have blank' : ' ' ∉ (decimal b.toNat).toList := not_mem_decimal (by decide) _
  have comma' : ',' ∉ (decimal b.toNat).toList := not_mem_decimal (by decide) _
  have bare : ' ' ∉ mnemonic.name.toList := by cases mnemonic <;> decide
  rw [toList_text]
  cases mnemonic with
  | hlt =>
      change reassemble? ("HLT".toList ++ []) = some [0x01]
      decide
  | ldi =>
      refine (reassemble?_two bare ⟨blank a, blank'⟩ ⟨comma a, comma'⟩).trans ?_
      simp only [statement?, Mnemonic.name, register?_registerText, readByte?_decimal]
      rfl
  | mul =>
      refine (reassemble?_two bare ⟨blank a, blank b⟩ ⟨comma a, comma b⟩).trans ?_
      simp only [statement?, Mnemonic.name, register?_registerText]
      rfl
  | prn | push | pop =>
      refine (reassemble?_one bare (blank a) (comma a)).trans ?_
      simp only [statement?, Mnemonic.name, register?_registerText]
      rfl

theorem reassemble?_data (address : Nat) (byte : UInt8) :
    reassemble? (ListingLine.data address byte).content.toList = some [byte] := by
  have blank : ' ' ∉ '0' :: 'x' :: (hex byte.toNat).toList := by
    simp [not_mem_hex (c := ' ') (by decide) byte.toNat, -toList_hex]
  have comma : ',' ∉ '0' :: 'x' :: (hex byte.toNat).toList := by
    simp [not_mem_hex (c := ',') (by decide) byte.toNat, -toList_hex]
  have written : (ListingLine.data address byte).content.toList =
      ".byte".toList ++ ' ' :: '0' :: 'x' :: (hex byte.toNat).toList := by
    simp [ListingLine.content]
  rw [written, reassemble?_one (by decide) blank comma]
  simp [statement?, datum?, readByte?_hex, -toList_hex]

end Content

section Columns

theorem mapM_map_eq_some {α β γ : Type} {text : α → β} {read : β → Option γ} {value : α → γ}
    {items : List α} (reads : ∀ item ∈ items, read (text item) = some (value item)) :
    (items.map text).mapM read = some (items.map value) := by
  induction items with
  | nil => rfl
  | cons item rest ih =>
      obtain ⟨here, later⟩ := List.forall_mem_cons.mp reads
      rw [List.map_cons, List.mapM_cons, here, ih later]
      rfl

theorem pair?_hexUpper (byte : UInt8) : pair? (hexUpper byte.toNat).toList = some byte := by
  rw [pair?, if_pos (length_hexUpper_toNat byte)]
  exact readByte?_of_read? (read?_hexUpper byte.toNat)

theorem address?_hexUpper (address : Nat) : address? (hexUpper address).toList = some address := by
  rw [address?, if_pos (two_le_length_hexUpper address), read?_hexUpper]

theorem length_hexBytes (first : UInt8) (rest : List UInt8) :
    (hexBytes (first :: rest)).length = 3 * rest.length + 2 := by
  induction rest generalizing first with
  | nil =>
      simp [hexBytes, ← String.length_toList, length_hexUpper_toNat first, -toList_hexUpper]
  | cons second rest ih =>
      have later := ih second
      have blank : " ".length = 1 := rfl
      simp only [hexBytes, List.map_cons, String.intercalate_cons_cons, String.length_append]
        at later ⊢
      rw [later, ← String.length_toList, length_hexUpper_toNat, blank, List.length_cons]
      omega

theorem words_append_blanks (column : List Char) (count : Nat) :
    ((column ++ List.replicate count ' ').splitOn ' ').filter (fun digits => !digits.isEmpty) =
      (column.splitOn ' ').filter fun digits => !digits.isEmpty := by
  induction count generalizing column with
  | zero => simp
  | succ count ih =>
      rw [List.replicate_succ, ← List.singleton_append, ← List.append_assoc, ih,
        List.splitOn_append_cons_self]
      simp

theorem hexColumn?_hexBytes {bytes : List UInt8} (nonempty : bytes ≠ []) (width : Nat) :
    hexColumn? (Text.column width (hexBytes bytes)).toList = some bytes := by
  have bare : ∀ digits ∈ bytes.map fun byte => (hexUpper byte.toNat).toList, ' ' ∉ digits := by
    intro digits member
    obtain ⟨byte, -, rfl⟩ := List.mem_map.mp member
    exact not_mem_of_read? (read?_hexUpper byte.toNat) (by decide)
  have split : (hexBytes bytes).toList.splitOn ' ' =
      bytes.map fun byte => (hexUpper byte.toNat).toList := by
    have whole := List.splitOn_intercalate ' ' bare (by simpa using nonempty)
    simpa [hexBytes, Function.comp_def, -toList_hexUpper] using whole
  have filled : ∀ digits ∈ bytes.map fun byte => (hexUpper byte.toNat).toList,
      (!digits.isEmpty) = true := by
    intro digits member
    obtain ⟨byte, -, rfl⟩ := List.mem_map.mp member
    have two := length_hexUpper_toNat byte
    cases written : (hexUpper byte.toNat).toList with
    | nil => simp [written] at two
    | cons digit others => rfl
  rw [hexColumn?, Text.column, String.toList_append, String.toList_ofList, words_append_blanks,
    split, List.filter_eq_self.mpr filled]
  have read : (bytes.map fun byte => (hexUpper byte.toNat).toList).mapM pair? =
      some (bytes.map id) := mapM_map_eq_some fun byte _ => pair?_hexUpper byte
  rwa [List.map_id] at read

theorem row?_text {line : ListingLine} (nonempty : line.bytes ≠ [])
    (short : line.bytes.length ≤ 1 + maxOperands) :
    row? line.text.toList = some ⟨line.address, line.bytes, line.content⟩ := by
  have eight : (Text.column 8 (hexBytes line.bytes)).toList.length = 8 := by
    rw [String.length_toList, Text.length_column]
    cases written : line.bytes with
    | nil => exact absurd written nonempty
    | cons first rest =>
        rw [length_hexBytes]
        simp only [written, List.length_cons, maxOperands] at short
        omega
  have written : line.text.toList = (hexUpper line.address).toList ++
      ':' :: ' ' :: ((Text.column 8 (hexBytes line.bytes)).toList ++
        ' ' :: ' ' :: line.content.toList) := by
    simp [ListingLine.text, -toList_hexUpper]
  have digits : ∀ c ∈ (hexUpper line.address).toList, (c != ':') = true := by
    intro c member
    have other := not_mem_of_read? (read?_hexUpper line.address) (c := ':') (by decide)
    simp only [bne_iff_ne]
    rintro rfl
    exact other member
  rw [row?, written, List.dropWhile_append_of_pos digits, List.takeWhile_append_of_pos digits]
  simp [eight, address?_hexUpper, hexColumn?_hexBytes nonempty, -toList_hexUpper]

end Columns

section Lines

variable {base : Nat} {bytes : List UInt8} {line : ListingLine} {rest : List ListingLine}

theorem reassemble?_content (first : FirstLine base bytes line rest) :
    reassemble? line.content.toList = some line.bytes := by
  cases first with
  | instruction decoded whole =>
      obtain ⟨mnemonic, a, b, rfl⟩ := Instruction.eq_of_decode decoded
      exact reassemble?_instruction base mnemonic a b
  | data first failed => exact reassemble?_data base _

theorem directive_iff :
    ".byte".toList <+: line.content.toList ↔ ∃ address byte, line = .data address byte := by
  constructor
  · intro marked
    cases line with
    | data address byte => exact ⟨address, byte, rfl⟩
    | instruction inst =>
        obtain ⟨others, same⟩ := marked
        rw [ListingLine.content, toList_text] at same
        cases named : inst.mnemonic <;> simp [named, Mnemonic.name] at same
  · rintro ⟨address, byte, rfl⟩
    simp [ListingLine.content]

theorem data_iff_of_firstLine (first : FirstLine base bytes line rest) :
    (∃ address byte, line = .data address byte) ↔
      ∃ byte, bytes[0]? = some byte ∧
        ∀ mnemonic : Mnemonic, byte = mnemonic.opcode →
          bytes.length < mnemonic.descriptor.width := by
  cases first with
  | @instruction inst decoded whole =>
      obtain ⟨mnemonic, a, b, rfl⟩ := Instruction.eq_of_decode decoded
      have opcode := (Instruction.decode_eq_ok decoded).1
      rw [ByteSource.ofList, if_pos (Nat.le_refl _), Nat.sub_self] at opcode
      constructor
      · rintro ⟨address, byte, same⟩
        cases same
      · rintro ⟨byte, held, cut⟩
        rw [opcode] at held
        cases held
        exact absurd (cut mnemonic rfl) (Nat.not_lt.mpr whole)
  | @data byte trap first failed =>
      refine ⟨fun _ => ⟨byte, first, ?_⟩, fun _ => ⟨base, byte, rfl⟩⟩
      rintro mnemonic rfl
      have here : ByteSource.ofList base bytes base = some mnemonic.opcode := by
        rw [ByteSource.ofList, if_pos (Nat.le_refl _), Nat.sub_self, first]
      obtain ⟨slot, used, missing⟩ :=
        Instruction.missing_of_decode_error here (Descriptor.lookup_opcode mnemonic) failed
      rw [ByteSource.ofList, if_pos (by omega), List.getElem?_eq_none_iff] at missing
      simp only [Descriptor.width]
      omega

end Lines

end Reassembly

open Reassembly

theorem firstLine_of_listing {image : List UInt8} {before after : List ListingLine}
    {line : ListingLine} (split : listing image = before ++ line :: after) :
    FirstLine line.address (image.drop line.address) line after :=
  firstLine_of_listingFrom (listing_suffix split).2.symm

theorem firstLine_of_mem {image : List UInt8} {line : ListingLine} (member : line ∈ listing image) :
    ∃ after, FirstLine line.address (image.drop line.address) line after := by
  obtain ⟨before, after, split⟩ := List.append_of_mem member
  exact ⟨after, firstLine_of_listing split⟩

theorem image?_listing (image : List UInt8) :
    image? ((listing image).map ListingLine.content) = some image := by
  have read : ((listing image).map ListingLine.content).mapM (fun text => reassemble? text.toList) =
      some ((listing image).map ListingLine.bytes) := by
    apply mapM_map_eq_some
    intro line member
    obtain ⟨after, first⟩ := firstLine_of_mem member
    exact reassemble?_content first
  rw [image?, read, Option.map_some, ← List.flatMap_def]
  exact congrArg some (flatMap_bytes_listingFrom 0 image)

theorem eq_of_contents {image other : List UInt8}
    (same : (listing other).map ListingLine.content = (listing image).map ListingLine.content) :
    other = image := by
  have read := image?_listing other
  rw [same, image?_listing] at read
  exact (Option.some.inj read).symm

theorem row?_of_firstLine {base : Nat} {bytes : List UInt8} {line : ListingLine}
    {rest : List ListingLine} (first : FirstLine base bytes line rest) :
    row? line.text.toList = some ⟨line.address, line.bytes, line.content⟩ := by
  obtain ⟨nonempty, few⟩ := first.width
  exact row?_text (List.length_pos_iff.mp nonempty) few

theorem content_of_texts {image other : List UInt8}
    (same : (listing other).map ListingLine.text = (listing image).map ListingLine.text) :
    (listing other).map ListingLine.content = (listing image).map ListingLine.content := by
  have read (image : List UInt8) :
      ((listing image).map ListingLine.text).mapM
        (fun text => (row? text.toList).map Row.content) =
          some ((listing image).map ListingLine.content) := by
    apply mapM_map_eq_some
    intro line member
    obtain ⟨after, first⟩ := firstLine_of_mem member
    rw [row?_of_firstLine first, Option.map_some]
  have contents := read other
  rw [same, read] at contents
  exact (Option.some.inj contents).symm

theorem listing_reassembles (image : List UInt8) :
    (∀ (before after : List ListingLine) (line : ListingLine),
      listing image = before ++ line :: after →
        row? line.text.toList = some ⟨line.address, line.bytes, line.content⟩ ∧
        line.address = (before.flatMap ListingLine.bytes).length ∧
        1 ≤ line.bytes.length ∧ line.bytes.length ≤ 3 ∧
        line.bytes = (image.drop line.address).take line.bytes.length ∧
        reassemble? line.content.toList = some line.bytes ∧
        (".byte".toList <+: line.content.toList ↔
          ∃ byte, image[line.address]? = some byte ∧
            ∀ mnemonic : Mnemonic, byte = mnemonic.opcode →
              image.length < line.address + mnemonic.descriptor.width)) ∧
    (listing image).flatMap ListingLine.bytes = image ∧
    image? ((listing image).map ListingLine.content) = some image ∧
    ∀ other : List UInt8,
      ((listing other).map ListingLine.text = (listing image).map ListingLine.text →
        other = image) ∧
      ((listing other).map ListingLine.content = (listing image).map ListingLine.content →
        other = image) := by
  refine ⟨?_, flatMap_bytes_listingFrom 0 image, image?_listing image, ?_⟩
  · intro before after line split
    have inside := (listing_suffix split).1
    have first := firstLine_of_listing split
    obtain ⟨nonempty, few⟩ := first.width
    refine ⟨row?_of_firstLine first, address_of_listing split, nonempty, few, first.cut.2.1,
      reassemble?_content first, ?_⟩
    rw [directive_iff, data_iff_of_firstLine first, List.getElem?_drop, Nat.add_zero,
      List.length_drop]
    simp only [Nat.sub_lt_iff_lt_add inside, Nat.add_comm]
  · intro other
    exact ⟨fun same => eq_of_contents (content_of_texts same), eq_of_contents⟩

-- A LDI, a byte that is no opcode, and a PUSH whose register is cut off.
theorem listing_reassembles_cut_push :
    let image : List UInt8 := [0x82, 0, 8, 0xFF, 0x45]
    let before : List ListingLine :=
      [.instruction ⟨0, Mnemonic.ldi.descriptor, 0, 8⟩, .data 3 0xFF]
    listing image = before ++ [.data 4 0x45] ∧
    row? "04: 45        .byte 0x45".toList = some ⟨4, [0x45], ".byte 0x45"⟩ ∧
    (before.flatMap ListingLine.bytes).length = 4 ∧
    reassemble? ".byte 0x45".toList = some [0x45] ∧
    image? ["LDI R0,8", ".byte 0xff", ".byte 0x45"] = some image := by
  intro image before
  have split : listing image = before ++ [.data 4 0x45] := by decide +kernel
  obtain ⟨lines, -, read, -⟩ := listing_reassembles image
  obtain ⟨row, address, -, -, -, assembled, -⟩ := lines before [] (.data 4 0x45) split
  have contents : (listing image).map ListingLine.content =
      ["LDI R0,8", ".byte 0xff", ".byte 0x45"] := by
    rw [split]
    decide +kernel
  rw [contents] at read
  exact ⟨split, row, address.symm, assembled, read⟩

end LS8
