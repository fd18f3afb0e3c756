import Mathlib.Logic.Function.Basic
import LS8.Text.Units

set_option autoImplicit false

namespace LS8.Units

def ofString (text : String) : Units :=
  text.toList.flatMap ofChar

theorem text?_ofString (text : String) : text? (ofString text) = some text := by
  rw [text?, ofString, decode_ofChars, Option.map_some, String.ofList_toList]

theorem ofString_injective : Function.Injective ofString := by
  intro left right same
  simpa [text?_ofString] using congrArg text? same

theorem toNat_ofNat {code : Nat} (valid : code.isValidChar) : (Char.ofNat code).toNat = code := by
  rw [Char.ofNat, dif_pos valid]
  rfl

theorem ofChar_ofNat {unit : UInt16} (notHigh : isHigh unit = false) (notLow : isLow unit = false) :
    ofChar (Char.ofNat unit.toNat) = [unit] := by
  have size := unit.toNat_lt
  have valid : unit.toNat.isValidChar := by
    simp [isHigh, isLow, UInt16.le_iff_toNat_le, UInt16.lt_iff_toNat_lt, Nat.isValidChar]
      at notHigh notLow ⊢
    omega
  have same : (Char.ofNat unit.toNat).toNat = unit.toNat := toNat_ofNat valid
  rw [ofChar, same, if_pos size, UInt16.ofNat_toNat]

theorem ofChar_paired {high low : UInt16} (isPair : isHigh high = true ∧ isLow low = true) :
    ofChar (paired high low) = [high, low] := by
  have bounds : 0xD800 ≤ high.toNat ∧ high.toNat < 0xDC00 ∧ 0xDC00 ≤ low.toNat ∧
      low.toNat < 0xE000 := by
    simpa [isHigh, isLow, UInt16.le_iff_toNat_le, UInt16.lt_iff_toNat_lt, and_assoc] using isPair
  have valid :
      (0x10000 + (high.toNat - 0xD800) * 0x400 + (low.toNat - 0xDC00)).isValidChar := by
    simp only [Nat.isValidChar]
    omega
  have same : (paired high low).toNat =
      0x10000 + (high.toNat - 0xD800) * 0x400 + (low.toNat - 0xDC00) :=
    toNat_ofNat valid
  have first : 0xD800 + ((paired high low).toNat - 0x10000) / 0x400 = high.toNat := by omega
  have second : 0xDC00 + ((paired high low).toNat - 0x10000) % 0x400 = low.toNat := by omega
  have beyond : ¬(paired high low).toNat < 0x10000 := by omega
  rw [ofChar, if_neg beyond]
  simp only [first, second, UInt16.ofNat_toNat]

theorem eq_flatMap_of_decodeOnto {before : List Char} {units : Units} {text : List Char}
    (decoded : decodeOnto before units = some text) :
    ∃ rest, text = before.reverse ++ rest ∧ units = rest.flatMap ofChar := by
  -- The character in front stands before what the units behind it give.
  have next {c : Char} {read : List Char} {here behind : Units} (same : ofChar c = here)
      (tail : ∃ rest, text = (c :: read).reverse ++ rest ∧ behind = rest.flatMap ofChar) :
      ∃ rest, text = read.reverse ++ rest ∧ here ++ behind = rest.flatMap ofChar := by
    obtain ⟨rest, rfl, rfl⟩ := tail
    exact ⟨c :: rest, by simp, by rw [List.flatMap_cons, same]⟩
  fun_induction decodeOnto before units with
  | case1 before =>
      cases decoded
      exact ⟨[], by simp⟩
  | case2 => cases decoded
  | case3 before high isHigh low rest isLow ih =>
      exact next (ofChar_paired ⟨isHigh, isLow⟩) (ih decoded)
  | case4 => cases decoded
  | case5 => cases decoded
  | case6 before unit rest notHigh notLow ih =>
      exact next (ofChar_ofNat (by simpa using notHigh) (by simpa using notLow)) (ih decoded)

theorem text?_eq_some_iff {units : Units} {text : String} :
    text? units = some text ↔ units = ofString text := by
  refine ⟨fun reads => ?_, fun same => same ▸ text?_ofString text⟩
  obtain ⟨chars, decoded, rfl⟩ := Option.map_eq_some_iff.mp reads
  obtain ⟨rest, rfl, rfl⟩ := eq_flatMap_of_decodeOnto decoded
  simp [ofString]

end LS8.Units
