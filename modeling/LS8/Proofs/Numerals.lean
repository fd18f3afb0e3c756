import LS8.Text.Numeral

set_option autoImplicit false

namespace LS8.Numeral

def decimalDigits : List Char :=
  ['0', '1', '2', '3', '4', '5', '6', '7', '8', '9']

def hexDigits : List Char :=
  decimalDigits ++ ['a', 'b', 'c', 'd', 'e', 'f']

def upperHexDigits : List Char :=
  decimalDigits ++ ['A', 'B', 'C', 'D', 'E', 'F']

def readOnto? (digits : List Char) (value : Nat) : List Char → Option Nat
  | [] => some value
  | c :: rest =>
      match digits.idxOf? c with
      | some digit => readOnto? digits (digits.length * value + digit) rest
      | none => none

def read? (digits numeral : List Char) : Option Nat :=
  if numeral.isEmpty then none else readOnto? digits 0 numeral

def readByte? (digits numeral : List Char) : Option UInt8 :=
  (read? digits numeral).bind fun value => if value < 256 then some (.ofNat value) else none

theorem readOnto?_append (digits before after : List Char) (value : Nat) :
    readOnto? digits value (before ++ after) =
      (readOnto? digits value before).bind fun middle => readOnto? digits middle after := by
  induction before generalizing value with
  | nil => rfl
  | cons c rest ih =>
      simp only [List.cons_append, readOnto?]
      cases digits.idxOf? c with
      | none => rfl
      | some digit => exact ih _

theorem mem_digits_of_readOnto? {digits numeral : List Char} {value read : Nat}
    (reads : readOnto? digits value numeral = some read) : ∀ c ∈ numeral, c ∈ digits := by
  induction numeral generalizing value with
  | nil => exact nofun
  | cons c rest ih =>
      rw [readOnto?] at reads
      cases found : digits.idxOf? c with
      | none => simp [found] at reads
      | some digit =>
          simp only [found] at reads
          have member : c ∈ digits := by
            rw [← List.isSome_idxOf?, found]
            rfl
          exact List.forall_mem_cons.mpr ⟨member, ih reads⟩

theorem readOnto?_of_read? {digits numeral : List Char} {value : Nat}
    (reads : read? digits numeral = some value) : readOnto? digits 0 numeral = some value := by
  unfold read? at reads
  split at reads
  · cases reads
  · exact reads

theorem not_mem_of_read? {digits numeral : List Char} {value : Nat} {c : Char}
    (reads : read? digits numeral = some value) (other : c ∉ digits) : c ∉ numeral :=
  fun member => other (mem_digits_of_readOnto? (readOnto?_of_read? reads) c member)

theorem readByte?_of_read? {digits numeral : List Char} {byte : UInt8}
    (reads : read? digits numeral = some byte.toNat) : readByte? digits numeral = some byte := by
  simp [readByte?, reads, byte.toNat_lt]

section Spelled

variable {digits : List Char} {spell : Char → Char}
  (spelled : ∀ digit < digits.length, digits.idxOf? (spell (Nat.digitChar digit)) = some digit)

include spelled

theorem readOnto?_toDigits (many : 1 < digits.length) (n : Nat) :
    readOnto? digits 0 ((Nat.toDigits digits.length n).map spell) = some n := by
  induction n using Nat.strongRecOn with
  | ind n ih =>
      rcases Nat.lt_or_ge n digits.length with small | large
      · simp [Nat.toDigits_of_lt_base small, readOnto?, spelled n small]
      · have last := spelled (n % digits.length) (Nat.mod_lt n (by omega))
        rw [Nat.toDigits_of_base_le many large, List.map_append, readOnto?_append,
          ih _ (Nat.div_lt_self (by omega) many)]
        simp [readOnto?, last, Nat.div_add_mod]

theorem readOnto?_zeros (many : 1 < digits.length) (count : Nat) (numeral : List Char) :
    readOnto? digits 0 (List.replicate count (spell '0') ++ numeral) =
      readOnto? digits 0 numeral := by
  have zero : digits.idxOf? (spell '0') = some 0 := spelled 0 (by omega)
  induction count with
  | zero => rfl
  | succ count ih => simp [List.replicate_succ, readOnto?, zero, ih]

theorem read?_padded (many : 1 < digits.length) (width n : Nat) :
    read? digits ((padded width (Nat.toDigits digits.length n)).map spell) = some n := by
  have written : (padded width (Nat.toDigits digits.length n)).map spell ≠ [] := by
    simp [padded]
  rw [read?, if_neg (by simpa using written), padded, List.map_append, List.map_replicate,
    readOnto?_zeros spelled many, readOnto?_toDigits spelled many]

end Spelled

theorem read?_padded_decimal (width n : Nat) :
    read? decimalDigits (padded width (Nat.toDigits 10 n)) = some n := by
  have reads : read? decimalDigits ((padded width (Nat.toDigits 10 n)).map id) = some n :=
    read?_padded (by decide) (by decide) width n
  rwa [List.map_id] at reads

theorem read?_decimal (n : Nat) : read? decimalDigits (decimal n).toList = some n := by
  have unpadded : padded 0 (Nat.toDigits 10 n) = Nat.toDigits 10 n := by simp [padded]
  rw [toList_decimal, ← unpadded]
  exact read?_padded_decimal 0 n

theorem read?_hex (n : Nat) : read? hexDigits (hex n).toList = some n := by
  have reads : read? hexDigits ((padded 2 (Nat.toDigits 16 n)).map id) = some n :=
    read?_padded (by decide) (by decide) 2 n
  rwa [List.map_id, ← toList_hex] at reads

theorem read?_hexUpper (n : Nat) : read? upperHexDigits (hexUpper n).toList = some n := by
  have reads : read? upperHexDigits ((padded 2 (Nat.toDigits 16 n)).map Char.toUpper) = some n :=
    read?_padded (by decide) (by decide) 2 n
  rwa [← toList_hexUpper] at reads

def readFixed? (places : Nat) (text : List Char) : Option Nat :=
  match text.splitOn '.' with
  | [whole, part] =>
      if whole ≠ [] ∧ part.length = places then read? decimalDigits (whole ++ part) else none
  | _ => none

theorem readFixed?_fixed (places units : Nat) :
    readFixed? places (fixed places units).toList = some units := by
  have reads := read?_padded_decimal (places + 1) units
  have long : places + 1 ≤ (padded (places + 1) (Nat.toDigits 10 units)).length := by
    rw [length_padded]
    exact Nat.le_max_left ..
  simp only [fixed]
  generalize padded (places + 1) (Nat.toDigits 10 units) = digits at reads long ⊢
  have bare : '.' ∉ digits := not_mem_of_read? reads (by decide)
  have split : (String.ofList (digits.take (digits.length - places)) ++ "." ++
      String.ofList (digits.drop (digits.length - places))).toList.splitOn '.' =
        [digits.take (digits.length - places), digits.drop (digits.length - places)] := by
    have point : ".".toList = ['.'] := rfl
    simp only [String.toList_append, String.toList_ofList, point, List.append_assoc,
      List.singleton_append]
    rw [List.splitOn_append_cons_self_of_not_mem (fun member => bare (List.mem_of_mem_take member)),
      List.splitOn_eq_singleton (fun member => bare (List.mem_of_mem_drop member))]
  have whole : digits.take (digits.length - places) ≠ [] := by
    rw [← List.length_pos_iff, List.length_take]
    omega
  have part : (digits.drop (digits.length - places)).length = places := by
    rw [List.length_drop]
    omega
  rw [readFixed?, split]
  simp only [whole, part, ne_eq, not_false_eq_true, and_self, if_true, List.take_append_drop, reads]

theorem two_le_length_hexUpper (n : Nat) : 2 ≤ (hexUpper n).toList.length := by
  rw [toList_hexUpper, List.length_map, length_padded]
  exact Nat.le_max_left ..

theorem length_hexUpper_toNat (byte : UInt8) : (hexUpper byte.toNat).toList.length = 2 := by
  have short : (Nat.toDigits 16 byte.toNat).length ≤ 2 :=
    (Nat.length_toDigits_le_iff (by decide) (by decide)).mpr byte.toNat_lt
  rw [toList_hexUpper, List.length_map, length_padded]
  omega

end LS8.Numeral
