import LS8.Json.Number
import LS8.Text.Units

set_option autoImplicit false

namespace LS8.Json

inductive Value
  | null
  | bool (holds : Bool)
  | number (literal : List Char)
  | string (units : Units)
  | array (items : List Value)
  | object (members : List (Units × Value))
  deriving Inhabited

def isBlank (c : Char) : Bool :=
  c == ' ' || c == '\t' || c == '\n' || c == '\r'

/-- A container that is still open. Its contents so far stand in reverse. -/
inductive Frame
  | array (items : List Value)
  | object (members : List (Units × Value)) (key : Units)

inductive StringRole
  | value
  | key (members : List (Units × Value))

inductive Escape
  | none
  | opened
  | unicode (digits value : Nat)

inductive State
  | beforeValue
  | firstItem
  | firstKey
  | nextKey (members : List (Units × Value))
  | beforeColon (members : List (Units × Value)) (key : Units)
  | afterValue (value : Value)
  | word (rest : List Char) (value : Value)
  | number (read : List Char)
  | string (role : StringRole) (escape : Escape) (read : Units)

structure Reader where
  frames : List Frame
  state : State

namespace Reader

def start : Reader :=
  ⟨[], .beforeValue⟩

def beginString (role : StringRole) : State :=
  .string role .none []

def beginValue (frames : List Frame) (c : Char) : Option Reader :=
  match c with
  | '[' => some ⟨frames, .firstItem⟩
  | '{' => some ⟨frames, .firstKey⟩
  | '"' => some ⟨frames, beginString .value⟩
  | 'n' => some ⟨frames, .word ['u', 'l', 'l'] .null⟩
  | 't' => some ⟨frames, .word ['r', 'u', 'e'] (.bool true)⟩
  | 'f' => some ⟨frames, .word ['a', 'l', 's', 'e'] (.bool false)⟩
  | c => if Number.isPart c then some ⟨frames, .number [c]⟩ else none

def separate (frames : List Frame) (value : Value) (c : Char) : Option Reader :=
  match frames, c with
  | .array items :: outer, ',' => some ⟨.array (value :: items) :: outer, .beforeValue⟩
  | .array items :: outer, ']' =>
      some ⟨outer, .afterValue (.array (value :: items).reverse)⟩
  | .object members key :: outer, ',' => some ⟨outer, .nextKey ((key, value) :: members)⟩
  | .object members key :: outer, '}' =>
      some ⟨outer, .afterValue (.object ((key, value) :: members).reverse)⟩
  | _, _ => none

def stepAfter (frames : List Frame) (value : Value) (c : Char) : Option Reader :=
  if isBlank c then some ⟨frames, .afterValue value⟩ else separate frames value c

def hexDigit? (c : Char) : Option Nat :=
  if c.isDigit then some (c.toNat - '0'.toNat)
  else if 'a' ≤ c ∧ c ≤ 'f' then some (c.toNat - 'a'.toNat + 10)
  else if 'A' ≤ c ∧ c ≤ 'F' then some (c.toNat - 'A'.toNat + 10)
  else none

def shortEscape? : Char → Option UInt16
  | '"' => some 0x22
  | '\\' => some 0x5C
  | '/' => some 0x2F
  | 'b' => some 0x08
  | 'f' => some 0x0C
  | 'n' => some 0x0A
  | 'r' => some 0x0D
  | 't' => some 0x09
  | _ => none

def closeString (frames : List Frame) (role : StringRole) (units : Units) : Reader :=
  match role with
  | .value => ⟨frames, .afterValue (.string units)⟩
  | .key members => ⟨frames, .beforeColon members units⟩

def stepString (frames : List Frame) (role : StringRole) (read : Units) (c : Char) :
    Escape → Option Reader
  | .none =>
      if c == '"' then some (closeString frames role read.reverse)
      else if c == '\\' then some ⟨frames, .string role .opened read⟩
      else if c.toNat < 0x20 then none
      else some ⟨frames, .string role .none ((Units.ofChar c).reverse ++ read)⟩
  | .opened =>
      if c == 'u' then
        some ⟨frames, .string role (.unicode 0 0) read⟩
      else
        (shortEscape? c).map fun unit => ⟨frames, .string role .none (unit :: read)⟩
  | .unicode digits value =>
      (hexDigit? c).map fun digit =>
        let value := 16 * value + digit
        if digits = 3 then
          ⟨frames, .string role .none (.ofNat value :: read)⟩
        else
          ⟨frames, .string role (.unicode (digits + 1) value) read⟩

def stepWord (frames : List Frame) (value : Value) (c : Char) : List Char → Option Reader
  | [] => none
  | [letter] => if c == letter then some ⟨frames, .afterValue value⟩ else none
  | letter :: rest => if c == letter then some ⟨frames, .word rest value⟩ else none

def stepNumber (frames : List Frame) (read : List Char) (c : Char) : Option Reader :=
  if Number.isPart c then
    some ⟨frames, .number (c :: read)⟩
  else if Number.isLiteral read.reverse then
    stepAfter frames (.number read.reverse) c
  else
    none

def State.skipsBlanks : State → Bool
  | .beforeValue | .firstItem | .firstKey | .nextKey _ | .beforeColon .. => true
  | _ => false

def step (reader : Reader) (c : Char) : Option Reader :=
  if State.skipsBlanks reader.state && isBlank c then
    some reader
  else
    match reader.state with
    | .beforeValue => beginValue reader.frames c
    | .firstItem =>
        if c == ']' then
          some ⟨reader.frames, .afterValue (.array [])⟩
        else
          beginValue (.array [] :: reader.frames) c
    | .firstKey =>
        if c == '}' then some ⟨reader.frames, .afterValue (.object [])⟩
        else if c == '"' then some ⟨reader.frames, beginString (.key [])⟩
        else none
    | .nextKey members =>
        if c == '"' then some ⟨reader.frames, beginString (.key members)⟩ else none
    | .beforeColon members key =>
        if c == ':' then some ⟨.object members key :: reader.frames, .beforeValue⟩ else none
    | .afterValue value => stepAfter reader.frames value c
    | .word rest value => stepWord reader.frames value c rest
    | .number read => stepNumber reader.frames read c
    | .string role escape read => stepString reader.frames role read c escape

def finish (reader : Reader) : Option Value :=
  match reader.frames, reader.state with
  | [], .afterValue value => some value
  | [], .number read =>
      if Number.isLiteral read.reverse then some (.number read.reverse) else none
  | _, _ => none

def read (reader : Reader) (text : List Char) : Option Reader :=
  text.foldlM step reader

@[simp]
theorem read_nil (reader : Reader) : reader.read [] = some reader := rfl

theorem read_cons (reader : Reader) (c : Char) (rest : List Char) :
    reader.read (c :: rest) = (reader.step c).bind fun next => next.read rest := by
  simp [read, List.foldlM_cons]

theorem read_append (reader : Reader) (before after : List Char) :
    reader.read (before ++ after) = (reader.read before).bind fun next => next.read after := by
  simp [read, List.foldlM_append]

end Reader

def parse? (text : List Char) : Option Value :=
  (Reader.start.read text).bind Reader.finish

end LS8.Json
