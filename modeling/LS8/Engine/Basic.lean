import LS8.Engine.Event
import LS8.Engine.Tally
import LS8.Machine.Frame

set_option autoImplicit false

namespace LS8

inductive RunState
  | running
  | halted (reason : HaltReason)
  deriving DecidableEq, Repr

def RunState.text : RunState → String
  | .running => "Running"
  | .halted reason => "Halted(" ++ reason.name ++ ")"

structure Engine where
  machine : Machine
  tally : Tally := {}
  tracing : Bool := false
  state : RunState := .running
  deriving DecidableEq, Repr

abbrev EngineAction := Action Emission Engine

namespace Engine

def ofSettings (settings : Settings) : Engine where
  machine := .ofSettings settings
  tracing := settings.traceInstructions

def onMachine {ε α : Type} (action : Action UInt8 Machine ε α) : EngineAction ε α :=
  action.within machine (fun engine machine => { engine with machine := machine }) .printed

def loadMachine (image : List UInt8) : EngineAction Trap Unit := do
  onMachine (.update (Machine.load image))
  let engine ← .get
  .emit (.event (.programLoaded image.length engine.machine.pc))

def resetMachine : EngineAction Trap Unit := do
  onMachine (.modify Machine.reset)
  let engine ← .get
  .emit (.event (.machineReset engine.machine.pc))

def restart : EngineAction Trap Unit :=
  .modify fun engine => { engine with tally := {}, state := .running }

def load (image : List UInt8) : EngineAction Trap Unit := do
  loadMachine image
  restart

def reset : EngineAction Trap Unit := do
  resetMachine
  restart

def setTracing {ε : Type} (on : Bool) : EngineAction ε Unit :=
  .modify fun engine => { engine with tracing := on }

def halt {ε : Type} (reason : HaltReason) : EngineAction ε RunState := do
  .modify fun engine => { engine with state := .halted reason }
  return .halted reason

def trace : EngineAction (Failure Fault) Unit := do
  let engine ← .get
  match engine.tracing with
  | false => return ()
  | true =>
      let snapshot ← .inspect fun engine =>
        (Snapshot.capture engine.machine).mapError .defect
      .emit (.snapshot snapshot)

def record (inst : Instruction) (depth : Nat) : EngineAction (Failure Trap) Unit :=
  .modify fun engine => { engine with tally := engine.tally.record inst depth }

def conclude (inst : Instruction) (flow : Flow) : EngineAction (Failure Trap) RunState := do
  onMachine (Machine.retire inst flow)
  let retired ← .get
  record inst retired.machine.stackDepth
  match flow with
  | .halt => do
      let counted ← .get
      .emit (.event (.halted counted.machine.pc counted.tally.retired))
      halt .hlt
  | .next | .jump _ => return .running

def step : EngineAction (Failure Trap) RunState := do
  let inst ← onMachine Machine.fetch
  .emit (.event (.execute inst))
  let flow ← onMachine (Machine.execute inst)
  conclude inst flow

def stepFailed (pc : Nat) : Failure Trap → EngineAction (Failure Fault) RunState
  | .raised trap => do
      .emit (.event (.fatalTrap pc trap))
      let _ ← halt .faulted
      .fail (.raised ⟨pc, trap⟩)
  | .defect defect => .fail (.defect defect)

def tick : EngineAction (Failure Fault) RunState := do
  let engine ← .get
  match engine.state with
  | .halted reason => return .halted reason
  | .running =>
      if engine.machine.programEnd ≤ engine.machine.pc then
        .emit (.event (.endOfProgram engine.machine.pc))
        halt .endOfProgram
      else
        trace
        step.recover (stepFailed engine.machine.pc)

end Engine

end LS8
