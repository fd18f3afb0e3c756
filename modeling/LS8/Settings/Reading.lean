import LS8.Json.Reading
import LS8.Machine.Basic

set_option autoImplicit false

namespace LS8.Settings

open Json

def valuesOf (key : String) (members : List (String × Value)) : List Value :=
  (members.filter fun (name, _) => name == key).map Prod.snd

def atMostOne : List Value → Option (Option Value)
  | [] => some none
  | [value] => some (some value)
  | _ => none

def twoFields (first second : String) : Value → Option (Option Value × Option Value)
  | .array [] => some (none, none)
  | .array [left] => some (some left, none)
  | .array [left, right] => some (some left, some right)
  | .object members => do
      let named ← members.mapM fun (key, value) => return (← key.text?, value)
      return (← atMostOne (valuesOf first named), ← atMostOne (valuesOf second named))
  | _ => none

def flag? : Value → Option Bool
  | .bool holds => some holds
  | _ => none

def byte? : Value → Option UInt8
  | .number literal =>
      (Number.natural? literal).bind fun value =>
        if value < 256 then some (.ofNat value) else none
  | _ => none

def placementNamed? : String → Option StackPlacement
  | "Growable" | "growable" | "GROWABLE" => some .growable
  | "Ram" | "ram" | "RAM" => some .ram
  | _ => none

/-- A placement is its name, or an object with the name as its only key and null as its value. -/
def placement? : Value → Option StackPlacement
  | .string units => units.text?.bind placementNamed?
  | .object [(key, .null)] => key.text?.bind placementNamed?
  | _ => none

def field {α : Type} (read : Value → Option α) (default : α) : Option Value → Option α
  | none => some default
  | some value => read value

def general? (settings : Settings) (value : Value) : Option Settings := do
  let (trace, start) ← twoFields "trace_instructions" "start_pc" value
  return { settings with
    traceInstructions := ← field flag? settings.traceInstructions trace
    startPc := ← field byte? settings.startPc start }

def memory? (settings : Settings) (value : Value) : Option Settings := do
  let (stack, top) ← twoFields "stack" "stack_top" value
  return { settings with
    placement := ← field placement? settings.placement stack
    stackTop := ← field byte? settings.stackTop top }

def ofValue? (value : Value) : Option Settings := do
  let (general, memory) ← twoFields "general" "memory" value
  let settings ← field (general? {}) {} general
  field (memory? settings) settings memory

def parse? (text : String) : Option Settings :=
  (Json.parse? text.toList).bind ofValue?

end LS8.Settings
