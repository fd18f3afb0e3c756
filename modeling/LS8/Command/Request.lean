import LS8.Command.Item
import LS8.Machine.Basic

set_option autoImplicit false

namespace LS8.Command

structure RunOptions where
  file : String
  config : Option String := none
  trace : Bool := false
  stats : Bool := false
  placement : Option StackPlacement := none
  startPc : Option UInt8 := none
  deriving DecidableEq, Repr

inductive Request
  | misuse
  | help
  | version
  | run (options : RunOptions) (verbose : Bool)
  | disassemble (file : String) (verbose : Bool)
  deriving DecidableEq, Repr

structure Draft where
  file : Option String := none
  config : Option String := none
  placement : Option StackPlacement := none
  startPc : Option UInt8 := none
  trace : Bool := false
  stats : Bool := false
  verbose : Bool := false
  deriving DecidableEq, Repr

def digits? (text : List Char) : Option Nat :=
  if text.isEmpty || !text.all Char.isDigit then none
  else some (text.foldl (fun value digit => 10 * value + (digit.toNat - '0'.toNat)) 0)

/-- A byte as a signed decimal number, leading zeros allowed. -/
def byte? (text : String) : Option UInt8 :=
  let value? : Option Int :=
    match text.toList with
    | '+' :: digits => (digits? digits).map Int.ofNat
    | '-' :: digits => (digits? digits).map fun value => -Int.ofNat value
    | digits => (digits? digits).map Int.ofNat
  value?.bind fun value =>
    if 0 ≤ value ∧ value < 256 then some (.ofNat value.toNat) else none

def placement? : String → Option StackPlacement
  | "growable" => some .growable
  | "ram" => some .ram
  | _ => none

def path? (text : String) : Option String :=
  if text.isEmpty then none else some text

def once {α : Type} (value : Option α) : Option α → Except Request (Option α)
  | none => if value.isSome then .ok value else .error .misuse
  | some _ => .error .misuse

def onceOnly (given : Bool) : Except Request Bool :=
  if given then .error .misuse else .ok true

namespace Draft

def add (draft : Draft) : Item → Except Request Draft
  | .flag .verbose => return { draft with verbose := ← onceOnly draft.verbose }
  | .flag .trace => return { draft with trace := ← onceOnly draft.trace }
  | .flag .stats => return { draft with stats := ← onceOnly draft.stats }
  | .flag .help => throw .help
  | .flag .version => throw .version
  | .setting .config value => return { draft with config := ← once (path? value) draft.config }
  | .setting .stack value =>
      return { draft with placement := ← once (placement? value) draft.placement }
  | .setting .startPc value => return { draft with startPc := ← once (byte? value) draft.startPc }
  | .word text => return { draft with file := ← once (path? text) draft.file }
  | .misuse => throw .misuse

def ofItems (items : List Item) : Except Request Draft :=
  items.foldlM add {}

end Draft

def commonLong : List (String × Meaning) :=
  [("verbose", .flag .verbose), ("help", .flag .help)]

def commonShort : List (Char × Meaning) :=
  [('v', .flag .verbose), ('h', .flag .help)]

def topNames : Names where
  long := commonLong ++ [("version", .flag .version)]
  short := commonShort ++ [('V', .flag .version)]

def runNames : Names where
  long := commonLong ++
    [("trace", .flag .trace), ("stats", .flag .stats), ("config", .setting .config),
      ("stack", .setting .stack), ("start-pc", .setting .startPc)]
  short := commonShort ++ [('c', .setting .config)]

def disassembleNames : Names where
  long := commonLong
  short := commonShort

def runRequest (verbose : Bool) (arguments : List String) : Except Request Request := do
  let draft ← Draft.ofItems (items runNames arguments)
  match draft.file with
  | none => throw .misuse
  | some file =>
      let options : RunOptions := {
        file := file
        config := draft.config
        trace := draft.trace
        stats := draft.stats
        placement := draft.placement
        startPc := draft.startPc }
      return .run options (verbose || draft.verbose)

def disassembleRequest (verbose : Bool) (arguments : List String) :
    Except Request Request := do
  let draft ← Draft.ofItems (items disassembleNames arguments)
  match draft.file with
  | none => throw .misuse
  | some file => return .disassemble file (verbose || draft.verbose)

def helpRequest : List String → Request
  | [] | ["run"] | ["disasm"] | ["help"] => .help
  | _ => .misuse

def topRequest (draft : Draft) : List String → Except Request Request
  | [] => throw .misuse
  | "run" :: arguments => runRequest draft.verbose arguments
  | "disasm" :: arguments => disassembleRequest draft.verbose arguments
  | "help" :: arguments => return helpRequest arguments
  | argument :: rest =>
      match readArgument topNames argument with
      | .complete read => do
          let draft ← read.foldlM Draft.add draft
          if draft.file.isSome then throw .misuse else topRequest draft rest
      | .misused read => do
          let _ ← read.foldlM Draft.add draft
          throw .misuse
      | .awaiting _ _ => throw .misuse

def Request.ofArguments (arguments : List String) : Request :=
  match topRequest {} arguments with
  | .ok request => request
  | .error request => request

example :
    Request.ofArguments ["-v", "run", "--stack=ram", "-c", "c", "p"] =
      .run { file := "p", config := some "c", placement := some .ram } true := by
  decide +kernel

end LS8.Command
