set_option autoImplicit false

namespace LS8.Json.Number

def isPart (c : Char) : Bool :=
  c.isDigit || c == '-' || c == '+' || c == '.' || c == 'e' || c == 'E'

def afterDigits (literal : List Char) : Option (List Char) :=
  if (literal.takeWhile Char.isDigit).isEmpty then none
  else some (literal.dropWhile Char.isDigit)

def afterSign : List Char → List Char
  | '-' :: rest => rest
  | literal => literal

def afterInteger : List Char → Option (List Char)
  | '0' :: rest => some rest
  | literal => afterDigits literal

def afterFraction : List Char → Option (List Char)
  | '.' :: rest => afterDigits rest
  | literal => some literal

def afterExponentSign : List Char → List Char
  | '+' :: rest => rest
  | '-' :: rest => rest
  | literal => literal

def afterExponent : List Char → Option (List Char)
  | 'e' :: rest => afterDigits (afterExponentSign rest)
  | 'E' :: rest => afterDigits (afterExponentSign rest)
  | literal => some literal

def isLiteral (literal : List Char) : Bool :=
  ((afterInteger (afterSign literal)).bind afterFraction).bind afterExponent == some []

def digitValue (c : Char) : Nat :=
  c.toNat - '0'.toNat

def natural? (literal : List Char) : Option Nat :=
  if literal.all Char.isDigit then
    some (literal.foldl (fun value digit => 10 * value + digitValue digit) 0)
  else
    none

example :
    isLiteral "-0.5e+10".toList = true ∧ isLiteral "01".toList = false ∧
      isLiteral "1.".toList = false ∧ isLiteral "1e".toList = false := by
  decide +kernel

end LS8.Json.Number
