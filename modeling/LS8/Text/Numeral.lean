set_option autoImplicit false

namespace LS8.Numeral

def padded (width : Nat) (digits : List Char) : List Char :=
  List.replicate (width - digits.length) '0' ++ digits

theorem length_padded (width : Nat) (digits : List Char) :
    (padded width digits).length = max width digits.length := by
  simp [padded]
  omega

def decimal (n : Nat) : String :=
  String.ofList (Nat.toDigits 10 n)

@[simp]
theorem toList_decimal (n : Nat) : (decimal n).toList = Nat.toDigits 10 n := by
  simp [decimal]

def fixed (places units : Nat) : String :=
  let digits := padded (places + 1) (Nat.toDigits 10 units)
  let point := digits.length - places
  String.ofList (digits.take point) ++ "." ++ String.ofList (digits.drop point)

def hex (n : Nat) : String :=
  String.ofList (padded 2 (Nat.toDigits 16 n))

@[simp]
theorem toList_hex (n : Nat) : (hex n).toList = padded 2 (Nat.toDigits 16 n) := by
  simp [hex]

def hexUpper (n : Nat) : String :=
  String.ofList ((padded 2 (Nat.toDigits 16 n)).map Char.toUpper)

@[simp]
theorem toList_hexUpper (n : Nat) :
    (hexUpper n).toList = (padded 2 (Nat.toDigits 16 n)).map Char.toUpper := by
  simp [hexUpper]

def hexBytes (bytes : List UInt8) : String :=
  " ".intercalate (bytes.map fun byte => hexUpper byte.toNat)

example : decimal 244 = "244" ∧ hex 5 = "05" ∧ hex 256 = "100" ∧ hexUpper 0xF4 = "F4" := by
  decide

end LS8.Numeral
