import LS8.Program.Source
import LS8.Settings.Reading

set_option autoImplicit false

namespace LS8

abbrev Storage := String → Except String ByteArray

def Storage.readText (storage : Storage) (path : String) : Except String String := do
  let bytes ← storage path
  match String.fromUTF8? bytes with
  | some text => return text
  | none => throw "stream did not contain valid UTF-8"

def Program.ofFile (storage : Storage) (path : String) : Except LoadError (List UInt8) :=
  match storage.readText path with
  | .ok text => parse text
  | .error cause => .error (.unreadable path cause)

inductive SettingsError
  | unreadable (path cause : String)
  | invalid (cause : String)
  deriving DecidableEq, Repr

def SettingsError.text : SettingsError → String
  | .unreadable path cause => "could not read config '" ++ path ++ "': " ++ cause
  | .invalid cause => "invalid config: " ++ cause

/-- What a JSON reader says about a text that gives no settings is up to the reader. -/
def Settings.ofText (explain : String → String) (text : String) : Except String Settings :=
  match parse? text with
  | some settings => .ok settings
  | none => .error (explain text)

def Settings.ofFile (explain : String → String) (storage : Storage) (path : String) :
    Except SettingsError Settings :=
  match storage.readText path with
  | .ok text => (ofText explain text).mapError .invalid
  | .error cause => .error (.unreadable path cause)

end LS8
