import LS8.Engine.Event
import LS8.Proofs.Grammar
import LS8.Proofs.Reassembly

set_option autoImplicit false

namespace LS8

open Numeral

namespace Text

theorem takeWhile_ended {c : Char} {part : List Char} (bare : c ∉ part) (rest : List Char) :
    (part ++ c :: rest).takeWhile (fun d => d != c) = part := by
  have inside : ∀ d ∈ part, (d != c) = true := by
    intro d member
    rw [bne_iff_ne]
    rintro rfl
    exact bare member
  rw [List.takeWhile_append_of_pos inside, List.takeWhile_cons_of_neg (by simp), List.append_nil]

theorem eq_of_ended {leading part part' ending after after' : String} {c : Char}
    (first : ending.toList.head? = some c) (bare : c ∉ part.toList) (bare' : c ∉ part'.toList)
    (same : leading ++ part ++ ending ++ after = leading ++ part' ++ ending ++ after') :
    part = part' ∧ after = after' := by
  obtain ⟨others, ends⟩ := List.head?_eq_some_iff.mp first
  have rest : part ++ ending ++ after = part' ++ ending ++ after' := by
    simpa only [String.append_assoc, String.append_right_inj] using same
  have written (part after : String) : (part ++ ending ++ after).toList =
      part.toList ++ c :: (others ++ after.toList) := by
    simp [ends]
  have pieces := congrArg (fun text => text.toList.takeWhile fun d => d != c) rest
  simp only [written, takeWhile_ended bare, takeWhile_ended bare'] at pieces
  obtain rfl := String.toList_injective pieces
  exact ⟨rfl, (String.append_right_inj _).mp rest⟩

theorem head?_append {start : String} {c : Char} (first : start.toList.head? = some c)
    (rest : String) : (start ++ rest).toList.head? = some c := by
  rw [String.toList_append, List.head?_append, first]
  rfl

end Text

namespace Numeral

section Written

variable {digits : List Char} {write : Nat → String}
  (reads : ∀ n, read? digits (write n).toList = some n)

include reads

theorem write_injective : Function.Injective write := by
  intro m n same
  have value := reads m
  rw [same, reads n] at value
  exact (Option.some.inj value).symm

theorem eq_of_numeral_ended {leading ending after after' : String} {c : Char} {m n : Nat}
    (first : ending.toList.head? = some c) (other : c ∉ digits)
    (same : leading ++ write m ++ ending ++ after = leading ++ write n ++ ending ++ after') :
    m = n ∧ after = after' := by
  have bare (k : Nat) : c ∉ (write k).toList := not_mem_of_read? (reads k) other
  obtain ⟨numerals, rest⟩ := Text.eq_of_ended first (bare m) (bare n) same
  exact ⟨write_injective reads numerals, rest⟩

end Written

theorem length_hexBytes_congr {bytes bytes' : List UInt8} (counted : bytes.length = bytes'.length) :
    (hexBytes bytes).length = (hexBytes bytes').length := by
  cases bytes with
  | nil => rw [List.length_eq_zero_iff.mp counted.symm]
  | cons first rest =>
      cases bytes' with
      | nil => cases counted
      | cons first' rest' =>
          rw [Reassembly.length_hexBytes, Reassembly.length_hexBytes, Nat.succ.inj counted]

theorem eq_of_hexBytes {count : Nat} {before before' : String} {bytes bytes' : Vector UInt8 count}
    (filled : 0 < count)
    (same : before ++ hexBytes bytes.toList = before' ++ hexBytes bytes'.toList) :
    before = before' ∧ bytes = bytes' := by
  have nonempty (bytes : Vector UInt8 count) : bytes.toList ≠ [] := by
    rw [← List.length_pos_iff, Vector.length_toList]
    exact filled
  have texts := congrArg String.toList same
  rw [String.toList_append, String.toList_append] at texts
  obtain ⟨front, columns⟩ := List.append_inj' texts (length_hexBytes_congr (by simp))
  have read := Reassembly.hexColumn?_hexBytes (nonempty bytes) 0
  rw [String.toList_injective columns, Reassembly.hexColumn?_hexBytes (nonempty bytes') 0] at read
  exact ⟨String.toList_injective front, Vector.toList_inj.mp (Option.some.inj read).symm⟩

end Numeral

theorem Mnemonic.blank_not_mem_name (mnemonic : Mnemonic) : ' ' ∉ mnemonic.name.toList := by
  cases mnemonic <;> decide

theorem ExecutionUnit.name_injective : Function.Injective ExecutionUnit.name := by
  intro left right same
  cases left <;> cases right <;> simp_all [ExecutionUnit.name]

namespace Location

def initial : Location → Char
  | .register _ => 'r'
  | .memory _ => 'm'

theorem head?_text (location : Location) : location.text.toList.head? = some location.initial := by
  cases location with
  | register index => exact Text.head?_append rfl _
  | memory address => exact Text.head?_append rfl _

theorem text_injective : Function.Injective text := by
  intro left right same
  have kinds : left.initial = right.initial := by
    rw [← Option.some_inj, ← head?_text, ← head?_text, same]
  cases left with
  | register index =>
      cases right with
      | register index' =>
          change "register R" ++ decimal index = "register R" ++ decimal index' at same
          rw [String.append_right_inj] at same
          rw [write_injective read?_decimal same]
      | memory address => simp [initial] at kinds
  | memory address =>
      cases right with
      | register index => simp [initial] at kinds
      | memory address' =>
          change "memory address 0x" ++ hex address = "memory address 0x" ++ hex address' at same
          rw [String.append_right_inj] at same
          rw [write_injective read?_hex same]

end Location

namespace Trap

def initial : Trap → Char
  | .outOfRange _ => 'O'
  | .illegalInstruction .. => 'I'
  | .unsupportedOperation .. => 'U'
  | .stackUnderflow => 'S'

theorem head?_text (trap : Trap) : trap.text.toList.head? = some trap.initial := by
  cases trap with
  | outOfRange location => exact Text.head?_append (Text.head?_append rfl _) _
  | illegalInstruction | unsupportedOperation =>
      iterate 4 apply Text.head?_append
      rfl
  | stackUnderflow => rfl

theorem text_injective : Function.Injective text := by
  intro left right same
  have kinds : left.initial = right.initial := by
    rw [← Option.some_inj, ← head?_text, ← head?_text, same]
  cases left with
  | outOfRange location =>
      cases right with
      | outOfRange location' =>
          have inner := (String.append_left_inj ")").mp same
          rw [String.append_right_inj] at inner
          rw [Location.text_injective inner]
      | _ => simp [initial] at kinds
  | illegalInstruction opcode pc =>
      cases right with
      | illegalInstruction opcode' pc' =>
          have inner := (String.append_left_inj ")").mp same
          obtain ⟨opcodes, pcs⟩ := eq_of_numeral_ended read?_hex (c := ' ') rfl (by decide) inner
          rw [UInt8.toNat_inj.mp opcodes, write_injective read?_hex pcs]
      | _ => simp [initial] at kinds
  | unsupportedOperation mnemonic unit =>
      cases right with
      | unsupportedOperation mnemonic' unit' =>
          have inner := (String.append_left_inj ")").mp same
          obtain ⟨names, units⟩ := Text.eq_of_ended rfl mnemonic.blank_not_mem_name
            mnemonic'.blank_not_mem_name inner
          rw [Mnemonic.name_injective _ _ names, ExecutionUnit.name_injective units]
      | _ => simp [initial] at kinds
  | stackUnderflow =>
      cases right with
      | stackUnderflow => rfl
      | _ => simp [initial] at kinds

end Trap

theorem Fault.text_injective : Function.Injective Fault.text := by
  rintro ⟨pc, trap⟩ ⟨pc', trap'⟩ same
  obtain ⟨pcs, traps⟩ := eq_of_numeral_ended read?_hex (c := ':') rfl (by decide) same
  rw [Fault.mk.injEq]
  exact ⟨pcs, Trap.text_injective traps⟩

theorem Snapshot.text_injective : Function.Injective Snapshot.text := by
  rintro ⟨pc, bytes, registers⟩ ⟨pc', bytes', registers'⟩ same
  -- The columns of bytes are as wide in both texts, so they are taken off from the end.
  obtain ⟨middle, cells⟩ := eq_of_hexBytes (by decide) same
  obtain ⟨front, shown⟩ := eq_of_hexBytes (by decide) ((String.append_left_inj " | ").mp middle)
  have numerals := (String.append_right_inj _).mp ((String.append_left_inj " | ").mp front)
  rw [Snapshot.mk.injEq]
  exact ⟨write_injective read?_hexUpper numerals, shown, congrArg Registers.mk cells⟩

theorem lines_outputText (values : List UInt8) :
    Text.lines (outputText values).toList =
      values.map fun value => (decimal value.toNat).toList := by
  induction values with
  | nil => rfl
  | cons value rest ih =>
      have written : (outputText (value :: rest)).toList =
          (decimal value.toNat).toList ++ '\n' :: (outputText rest).toList := by
        simp [outputText, -toList_decimal]
      have whole : '\n' ∉ (decimal value.toNat).toList :=
        Reassembly.not_mem_decimal (by decide) _
      have bare : (decimal value.toNat).toList.getLast? ≠ some '\r' := fun last =>
        Reassembly.not_mem_decimal (by decide) _ (List.mem_of_getLast? last)
      rw [written, Text.lines_append_feed whole bare, ih, List.map_cons]

def readOutput? (text : String) : Option (List UInt8) :=
  (Text.lines text.toList).mapM (readByte? decimalDigits)

example : readOutput? "72\n0\n" = some [72, 0] ∧ readOutput? "72 0\n" = none := by
  decide +kernel

theorem readOutput?_outputText (values : List UInt8) :
    readOutput? (outputText values) = some values := by
  have read : (values.map fun value => (decimal value.toNat).toList).mapM
      (readByte? decimalDigits) = some (values.map id) :=
    Reassembly.mapM_map_eq_some fun value _ => Reassembly.readByte?_decimal value
  rw [readOutput?, lines_outputText, read, List.map_id]

theorem reports_told_apart :
    (∀ fault fault' : Fault, fault.text = fault'.text ↔ fault = fault') ∧
    (∀ snapshot snapshot' : Snapshot, snapshot.text = snapshot'.text ↔ snapshot = snapshot') ∧
    (∀ values : List UInt8, readOutput? (outputText values) = some values) ∧
    (∀ values values' : List UInt8, outputText values = outputText values' ↔ values = values') := by
  refine ⟨fun _ _ => Fault.text_injective.eq_iff, fun _ _ => Snapshot.text_injective.eq_iff,
    readOutput?_outputText, ?_⟩
  intro values values'
  refine ⟨fun same => ?_, congrArg outputText⟩
  have read := readOutput?_outputText values
  rw [same, readOutput?_outputText] at read
  exact (Option.some.inj read).symm

end LS8
