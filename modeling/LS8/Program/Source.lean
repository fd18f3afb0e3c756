import LS8.Machine.Memory
import LS8.Text.Basic

set_option autoImplicit false

namespace LS8

inductive LoadError
  | unreadable (path cause : String)
  | malformed (line : Nat) (code : String)
  | tooLarge (length capacity : Nat)
  deriving DecidableEq, Repr

def LoadError.text : LoadError → String
  | .unreadable path cause => "could not read '" ++ path ++ "': " ++ cause
  | .malformed line code =>
      "line " ++ Numeral.decimal line ++ ": malformed instruction byte '" ++ code ++ "'"
  | .tooLarge length capacity =>
      "program is " ++ Numeral.decimal length ++ " bytes but memory holds "
        ++ Numeral.decimal capacity

namespace Program

def codeOf (line : List Char) : List Char :=
  Text.trim (line.takeWhile fun c => c != '#')

def isBinary (c : Char) : Bool :=
  c == '0' || c == '1'

def binaryValue (digits : List Char) : Nat :=
  digits.foldl (fun value digit => 2 * value + if digit == '1' then 1 else 0) 0

def byteOf? (code : List Char) : Option UInt8 :=
  if code.length ≤ 8 && code.all isBinary then some (.ofNat (binaryValue code)) else none

def codes (text : List Char) : List (List Char × Nat) :=
  (((Text.lines text).map codeOf).zipIdx 1).filter fun (code, _) => !code.isEmpty

def readCode : List Char × Nat → Except LoadError UInt8
  | (code, line) =>
      match byteOf? code with
      | some byte => .ok byte
      | none => .error (.malformed line (String.ofList code))

def checkSize (bytes : List UInt8) : Except LoadError (List UInt8) :=
  if memorySize < bytes.length then .error (.tooLarge bytes.length memorySize) else .ok bytes

def parse (text : String) : Except LoadError (List UInt8) := do
  let bytes ← (codes text.toList).mapM readCode
  checkSize bytes

example :
    (parse "# two\n10000010 # LDI\r\n\n 101\n").toOption = some [0x82, 0x05] ∧
      (parse "1\n\n12\n").toOption = none := by
  decide +kernel

end Program

end LS8
