set_option autoImplicit false

namespace LS8

abbrev Units := List UInt16

namespace Units

def isHigh (unit : UInt16) : Bool :=
  0xD800 ≤ unit && unit < 0xDC00

def isLow (unit : UInt16) : Bool :=
  0xDC00 ≤ unit && unit < 0xE000

def ofChar (c : Char) : Units :=
  if c.toNat < 0x10000 then
    [.ofNat c.toNat]
  else
    let beyond := c.toNat - 0x10000
    [.ofNat (0xD800 + beyond / 0x400), .ofNat (0xDC00 + beyond % 0x400)]

def paired (high low : UInt16) : Char :=
  Char.ofNat (0x10000 + (high.toNat - 0xD800) * 0x400 + (low.toNat - 0xDC00))

def decodeOnto (read : List Char) : Units → Option (List Char)
  | [] => some read.reverse
  | unit :: rest =>
      if isHigh unit then
        match rest with
        | [] => none
        | low :: rest => if isLow low then decodeOnto (paired unit low :: read) rest else none
      else if isLow unit then
        none
      else
        decodeOnto (Char.ofNat unit.toNat :: read) rest

def decode (units : Units) : Option (List Char) :=
  decodeOnto [] units

def text? (units : Units) : Option String :=
  (decode units).map String.ofList

theorem decodeOnto_basic {unit : UInt16} (notHigh : isHigh unit = false)
    (notLow : isLow unit = false) (read : List Char) (rest : Units) :
    decodeOnto read (unit :: rest) = decodeOnto (Char.ofNat unit.toNat :: read) rest := by
  cases rest <;> simp [decodeOnto, notHigh, notLow]

theorem decodeOnto_pair {high low : UInt16} (isPair : isHigh high = true ∧ isLow low = true)
    (read : List Char) (rest : Units) :
    decodeOnto read (high :: low :: rest) = decodeOnto (paired high low :: read) rest := by
  simp [decodeOnto, isPair]

theorem decodeOnto_ofChar (read : List Char) (c : Char) (rest : Units) :
    decodeOnto read (ofChar c ++ rest) = decodeOnto (c :: read) rest := by
  have range : c.toNat < 0xD800 ∨ 0xE000 ≤ c.toNat ∧ c.toNat < 0x110000 := by
    have valid := c.valid
    simp only [UInt32.isValidChar, Nat.isValidChar] at valid
    simp only [Char.toNat]
    omega
  have narrow (n : Nat) (small : n < 0x10000) : (UInt16.ofNat n).toNat = n := by
    simp only [UInt16.toNat_ofNat']
    omega
  unfold ofChar
  split
  next basic =>
    have same := narrow c.toNat basic
    have notHigh : isHigh (.ofNat c.toNat) = false := by
      simp only [isHigh, UInt16.le_iff_toNat_le, UInt16.lt_iff_toNat_lt, same]
      simp
      omega
    have notLow : isLow (.ofNat c.toNat) = false := by
      simp only [isLow, UInt16.le_iff_toNat_le, UInt16.lt_iff_toNat_lt, same]
      simp
      omega
    rw [List.singleton_append, decodeOnto_basic notHigh notLow, same, Char.ofNat_toNat]
  next beyond =>
    have high := narrow (0xD800 + (c.toNat - 0x10000) / 0x400) (by omega)
    have low := narrow (0xDC00 + (c.toNat - 0x10000) % 0x400) (by omega)
    have isPair : isHigh (.ofNat (0xD800 + (c.toNat - 0x10000) / 0x400)) = true ∧
        isLow (.ofNat (0xDC00 + (c.toNat - 0x10000) % 0x400)) = true := by
      simp only [isHigh, isLow, UInt16.le_iff_toNat_le, UInt16.lt_iff_toNat_lt, high, low]
      simp
      omega
    have same : paired (.ofNat (0xD800 + (c.toNat - 0x10000) / 0x400))
        (.ofNat (0xDC00 + (c.toNat - 0x10000) % 0x400)) = c := by
      have sum : 0x10000 + (0xD800 + (c.toNat - 0x10000) / 0x400 - 0xD800) * 0x400 +
          (0xDC00 + (c.toNat - 0x10000) % 0x400 - 0xDC00) = c.toNat := by omega
      rw [paired, high, low, sum, Char.ofNat_toNat]
    simp only [List.cons_append, List.nil_append]
    rw [decodeOnto_pair isPair, same]

theorem decode_ofChars (text : List Char) : decode (text.flatMap ofChar) = some text := by
  have onto (read : List Char) :
      decodeOnto read (text.flatMap ofChar) = some (read.reverse ++ text) := by
    induction text generalizing read with
    | nil => simp [decodeOnto]
    | cons c rest ih =>
        rw [List.flatMap_cons, decodeOnto_ofChar, ih]
        simp
  simpa [decode] using onto []

end Units

end LS8
