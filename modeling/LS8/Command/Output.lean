import LS8.Engine.Report
import LS8.Engine.Run

set_option autoImplicit false

namespace LS8.Command

inductive Output
  | out (line : String)
  | err (line : String)
  | statistics (tally : Tally)
  | log (logged : Event)
  deriving DecidableEq, Repr

def Output.ofEmission : Emission → Output
  | .printed value => .out (Numeral.decimal value.toNat)
  | .snapshot taken => .err taken.text
  | .event logged => .log logged

structure Completion where
  outputs : List Output
  status : Nat
  deriving DecidableEq, Repr

def fatal (before : List Output) (message : String) : Completion :=
  ⟨before ++ [.err ("[!] FATAL: " ++ message)], 1⟩

inductive LogFilter
  | off
  | atLeast (level : LogLevel)
  deriving DecidableEq, Repr

def LogFilter.ofName? (name : String) : Option LogFilter :=
  match name.toLower with
  | "trace" => some (.atLeast .trace)
  | "debug" => some (.atLeast .debug)
  | "info" => some (.atLeast .info)
  | "warn" => some (.atLeast .warn)
  | "error" => some (.atLeast .error)
  | "off" => some .off
  | _ => none

def LogFilter.choose (named : Option String) (verbose : Bool) : LogFilter :=
  (named.bind ofName?).getD (.atLeast (if verbose then .debug else .warn))

def LogFilter.shows : LogFilter → LogLevel → Bool
  | .off, _ => false
  | .atLeast least, level => least.severity ≤ level.severity

def Output.lines (microseconds : Nat) : Output → List String
  | .out line => [line]
  | .statistics tally => tally.report microseconds
  | .err _ | .log _ => []

def Output.errorLine? : Output → Option String
  | .err line => some line
  | _ => none

def Output.shown? (filter : LogFilter) : Output → Option Event
  | .log event => if filter.shows event.level then some event else none
  | _ => none

def standardOutput (microseconds : Nat) (outputs : List Output) : List String :=
  outputs.flatMap (Output.lines microseconds)

def standardError (outputs : List Output) : List String :=
  outputs.filterMap Output.errorLine?

def shownEvents (filter : LogFilter) (outputs : List Output) : List Event :=
  outputs.filterMap (Output.shown? filter)

theorem standardOutput_of_emitted (microseconds : Nat) (emitted : List Emission) :
    standardOutput microseconds (emitted.map Output.ofEmission) =
      (printedValues emitted).map fun value => Numeral.decimal value.toNat := by
  unfold standardOutput printedValues
  induction emitted with
  | nil => rfl
  | cons emission rest ih =>
      rw [List.map_cons, List.flatMap_cons, ih, List.filterMap_cons]
      cases emission <;> rfl

theorem standardError_of_emitted (emitted : List Emission) :
    standardError (emitted.map Output.ofEmission) = (snapshots emitted).map Snapshot.text := by
  unfold standardError snapshots
  induction emitted with
  | nil => rfl
  | cons emission rest ih =>
      rw [List.map_cons, List.filterMap_cons, ih, List.filterMap_cons]
      cases emission <;> rfl

end LS8.Command
