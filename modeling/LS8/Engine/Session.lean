import LS8.Engine.Run

set_option autoImplicit false

namespace LS8

inductive Operation
  | load (image : List UInt8)
  | loadMachine (image : List UInt8)
  | tick
  | run
  | reset
  | resetMachine
  | setTracing (on : Bool)
  | readRegister (index : Nat)
  | checkRegister (index : Nat)
  | writeRegister (index : Nat) (value : UInt8)
  | readMemory (address : Nat)
  | writeMemory (address : Nat) (value : UInt8)
  | loadAt (address : Nat) (image : List UInt8)
  | clearMemory
  | push (value : UInt8)
  | pop
  -- These three act on the growable stack, wherever the machine places its stack.
  | pushGrowable (value : UInt8)
  | popGrowable
  | clearGrowable
  | setPc (pc : Nat)
  | setPlacement (placement : StackPlacement)
  | setStackTop (value : UInt8)
  | fetch
  -- Where no instruction is given, the one at the program counter is meant.
  | execute (given : Option Instruction)
  | retire (given : Option Instruction) (flow : Flow)
  | record (given : Option Instruction) (depth : Nat)
  | capture
  | dump
  deriving DecidableEq, Repr

inductive Reply
  | done
  | byte (value : UInt8)
  | index (value : Nat)
  | popped (value : Option UInt8)
  | truth (holds : Bool)
  | state (reached : RunState)
  | finished (reason : HaltReason)
  | instruction (inst : Instruction)
  | flow (taken : Flow)
  | snapshot (taken : Snapshot)
  | text (line : String)
  | trapped (trap : Trap)
  | faulted (fault : Fault)
  | broken (defect : Defect)
  deriving DecidableEq, Repr

structure Turn where
  engine : Engine
  emitted : List Emission
  reply : Reply
  deriving DecidableEq, Repr

namespace Operation

variable {ε α : Type}

def failed (raised : ε → Reply) : Failure ε → Reply
  | .raised cause => raised cause
  | .defect defect => .broken defect

def answer (action : EngineAction ε α) (succeeded : α → Reply) (failed : ε → Reply)
    (engine : Engine) : Turn :=
  let outcome := action.run engine
  match outcome.result with
  | .ok value => ⟨outcome.state, outcome.emitted, succeeded value⟩
  | .error cause => ⟨outcome.state, outcome.emitted, failed cause⟩

def onMachine (action : MachineAction α) (succeeded : α → Reply) (engine : Engine) : Turn :=
  answer (Engine.onMachine action) succeeded .trapped engine

def change (adjust : Machine → Machine) (engine : Engine) : Turn :=
  onMachine (.modify adjust) (fun _ => .done) engine

def instructionOf : Option Instruction → MachineAction Instruction
  | some inst => return inst
  | none => Machine.fetch

def loadMemory (address : Nat) (image : List UInt8) : Action UInt8 Machine (Failure Trap) Unit :=
  .update fun machine => do
    return { machine with memory := ← machine.memory.loadAt address image }

def retireGiven (given : Option Instruction) (flow : Flow) :
    Action UInt8 Machine (Failure Trap) Unit := do
  let inst ← instructionOf given
  Machine.retire inst flow

def recordGiven (given : Option Instruction) (depth : Nat) :
    EngineAction (Failure Trap) Unit := do
  let inst ← Engine.onMachine (instructionOf given)
  Engine.record inst depth

def popStack : MachineAction (Option UInt8) := do
  let machine ← .get
  .modify fun machine => { machine with stack := machine.stack.tail }
  return machine.stack.head?

def perform : Operation → Engine → Turn
  | .load image => answer (Engine.load image) (fun _ => .done) .trapped
  | .loadMachine image => answer (Engine.loadMachine image) (fun _ => .done) .trapped
  | .tick => answer Engine.tick .state (failed .faulted)
  | .run => answer Engine.run .finished (failed .faulted)
  | .reset => answer Engine.reset (fun _ => .done) .trapped
  | .resetMachine => answer Engine.resetMachine (fun _ => .done) .trapped
  | .setTracing on => answer (Engine.setTracing on) (fun _ => .done) .trapped
  | .readRegister index => onMachine (Machine.readRegister index) .byte
  | .checkRegister index =>
      onMachine (.inspect fun _ => Registers.checkedIndex index) fun inside => .index inside
  | .writeRegister index value => onMachine (Machine.writeRegister index value) fun _ => .done
  | .readMemory address => onMachine (Machine.readMemory address) .byte
  | .writeMemory address value => onMachine (Machine.writeMemory address value) fun _ => .done
  | .loadAt address image =>
      answer (Engine.onMachine (loadMemory address image)) (fun _ => .done) (failed .trapped)
  | .clearMemory =>
      onMachine (do
        .modify fun machine => { machine with memory := .zero }
        .get) fun machine => .truth (machine.memory == .zero)
  | .push value => onMachine (Machine.push value) fun _ => .done
  | .pop => onMachine Machine.pop .byte
  | .pushGrowable value =>
      change fun machine => { machine with stack := value :: machine.stack }
  | .popGrowable => onMachine popStack .popped
  | .clearGrowable => change fun machine => { machine with stack := [] }
  | .setPc pc => change fun machine => { machine with pc := pc }
  | .setPlacement placement => change fun machine => { machine with placement := placement }
  | .setStackTop value => change fun machine => { machine with stackTop := value }
  | .fetch => onMachine Machine.fetch .instruction
  | .execute given =>
      onMachine (do
        let inst ← instructionOf given
        Machine.execute inst) .flow
  | .retire given flow =>
      answer (Engine.onMachine (retireGiven given flow)) (fun _ => .done) (failed .trapped)
  | .record given depth =>
      answer (recordGiven given depth) (fun _ => .done) (failed .trapped)
  | .capture =>
      answer (.inspect fun engine => Snapshot.capture engine.machine) .snapshot .broken
  | .dump => onMachine .get fun machine => .text machine.registers.dump

@[simp]
theorem engine_answer (action : EngineAction ε α) (succeeded : α → Reply) (failed : ε → Reply)
    (engine : Engine) :
    (answer action succeeded failed engine).engine = (action.run engine).state := by
  simp only [answer]
  cases (action.run engine).result <;> rfl

@[simp]
theorem emitted_answer (action : EngineAction ε α) (succeeded : α → Reply) (failed : ε → Reply)
    (engine : Engine) :
    (answer action succeeded failed engine).emitted = (action.run engine).emitted := by
  simp only [answer]
  cases (action.run engine).result <;> rfl

@[simp]
theorem engine_onMachine (action : MachineAction α) (succeeded : α → Reply) (engine : Engine) :
    (onMachine action succeeded engine).engine =
      { engine with machine := (action.run engine.machine).state } :=
  engine_answer ..

end Operation

def Engine.after (engine : Engine) : List Operation → Engine
  | [] => engine
  | operation :: rest => (operation.perform engine).engine.after rest

def turns : List Operation → Engine → List Turn
  | [], _ => []
  | operation :: rest, engine =>
      let turn := operation.perform engine
      turn :: turns rest turn.engine

end LS8
