set_option autoImplicit false

namespace LS8.Command

inductive Flag
  | verbose
  | help
  | version
  | trace
  | stats
  deriving DecidableEq, Repr

inductive Setting
  | config
  | stack
  | startPc
  deriving DecidableEq, Repr

inductive Meaning
  | flag (given : Flag)
  | setting (named : Setting)
  deriving DecidableEq, Repr

structure Names where
  long : List (String × Meaning)
  short : List (Char × Meaning)

def Names.long? (names : Names) (name : List Char) : Option Meaning :=
  names.long.lookup (String.ofList name)

def Names.short? (names : Names) (name : Char) : Option Meaning :=
  names.short.lookup name

inductive Item
  | flag (given : Flag)
  | setting (named : Setting) (value : String)
  | word (text : String)
  | misuse
  deriving DecidableEq, Repr

inductive Reading
  | complete (items : List Item)
  | awaiting (items : List Item) (named : Setting)
  | misused (items : List Item)
  deriving DecidableEq, Repr

def Reading.after (item : Item) : Reading → Reading
  | .complete items => .complete (item :: items)
  | .awaiting items named => .awaiting (item :: items) named
  | .misused items => .misused (item :: items)

def readLong (names : Names) (text : List Char) : Reading :=
  let name := text.takeWhile fun c => c != '='
  let attached := (text.dropWhile fun c => c != '=').tail?
  match names.long? name, attached with
  | some (.flag given), none => .complete [.flag given]
  | some (.setting named), some value => .complete [.setting named (String.ofList value)]
  | some (.setting named), none => .awaiting [] named
  | some (.flag _), some _ => .misused []
  | none, _ => .misused []

def withoutEquals : List Char → List Char
  | '=' :: value => value
  | value => value

def readShort (names : Names) : List Char → Reading
  | [] => .complete []
  | c :: rest =>
      match names.short? c with
      | some (.flag given) => (readShort names rest).after (.flag given)
      | some (.setting named) =>
          if rest.isEmpty then
            .awaiting [] named
          else
            .complete [.setting named (String.ofList (withoutEquals rest))]
      | none => .misused []

/-- A lone hyphen is a word. -/
def readArgument (names : Names) (argument : String) : Reading :=
  match argument.toList with
  | '-' :: '-' :: text => readLong names text
  | '-' :: c :: text => readShort names (c :: text)
  | _ => .complete [.word argument]

def isValue (argument : String) : Bool :=
  match argument.toList with
  | '-' :: _ :: _ => false
  | _ => true

def items (names : Names) : List String → List Item
  | [] => []
  | argument :: rest =>
      if argument == "--" then
        rest.map .word
      else
        match readArgument names argument, rest with
        | .complete read, rest => read ++ items names rest
        | .misused read, _ => read ++ [.misuse]
        | .awaiting read _, [] => read ++ [.misuse]
        | .awaiting read named, value :: rest =>
            if isValue value then
              read ++ .setting named value :: items names rest
            else
              read ++ [.misuse]

end LS8.Command
