import LS8.Machine.Snapshot

set_option autoImplicit false

namespace LS8

inductive HaltReason
  | hlt
  | endOfProgram
  | faulted
  deriving DecidableEq, Repr

def HaltReason.name : HaltReason → String
  | .hlt => "Hlt"
  | .endOfProgram => "EndOfProgram"
  | .faulted => "Faulted"

inductive LogLevel
  | trace
  | debug
  | info
  | warn
  | error
  deriving DecidableEq, Repr

namespace LogLevel

def name : LogLevel → String
  | .trace => "TRACE"
  | .debug => "DEBUG"
  | .info => "INFO"
  | .warn => "WARN"
  | .error => "ERROR"

def severity : LogLevel → Nat
  | .trace => 0
  | .debug => 1
  | .info => 2
  | .warn => 3
  | .error => 4

end LogLevel

inductive Event
  | programParsed (path : String) (length : Nat)
  | programLoaded (length pc : Nat)
  | machineReset (pc : Nat)
  | execute (inst : Instruction)
  | halted (pc retired : Nat)
  | endOfProgram (pc : Nat)
  | fatalTrap (pc : Nat) (trap : Trap)
  | runFinished (reason : HaltReason)
  deriving DecidableEq, Repr

namespace Event

def level : Event → LogLevel
  | .programParsed .. | .programLoaded .. | .machineReset _ | .runFinished _ => .debug
  | .execute _ => .trace
  | .halted .. => .info
  | .endOfProgram _ => .warn
  | .fatalTrap .. => .error

def message : Event → String
  | .programParsed path length =>
      "program parsed path=" ++ path ++ " len=" ++ Numeral.decimal length
  | .programLoaded length pc =>
      "program loaded len=" ++ Numeral.decimal length ++ " pc=" ++ Numeral.decimal pc
  | .machineReset pc => "cpu reset pc=" ++ Numeral.decimal pc
  | .execute inst => "execute pc=" ++ Numeral.decimal inst.pc ++ " inst=" ++ inst.text
  | .halted pc retired =>
      "halted pc=" ++ Numeral.decimal pc ++ " retired=" ++ Numeral.decimal retired
  | .endOfProgram pc => "reached end of program without HLT pc=" ++ Numeral.decimal pc
  | .fatalTrap pc trap => "fatal trap pc=" ++ Numeral.decimal pc ++ " trap=" ++ trap.text
  | .runFinished reason => "run finished reason=" ++ reason.name

def text (event : Event) : String :=
  event.level.name ++ " " ++ event.message

end Event

inductive Emission
  | printed (value : UInt8)
  | snapshot (taken : Snapshot)
  | event (logged : Event)
  deriving DecidableEq, Repr

namespace Emission

def printed? : Emission → Option UInt8
  | .printed value => some value
  | _ => none

def snapshot? : Emission → Option Snapshot
  | .snapshot taken => some taken
  | _ => none

def event? : Emission → Option Event
  | .event logged => some logged
  | _ => none

end Emission

def printedValues (emitted : List Emission) : List UInt8 :=
  emitted.filterMap Emission.printed?

def snapshots (emitted : List Emission) : List Snapshot :=
  emitted.filterMap Emission.snapshot?

def events (emitted : List Emission) : List Event :=
  emitted.filterMap Emission.event?

def outputText (values : List UInt8) : String :=
  String.join (values.map fun value => Numeral.decimal value.toNat ++ "\n")

end LS8
