import LS8.Proofs.Tracing

set_option autoImplicit false

namespace LS8

namespace Engine

structure Carryover where
  registers : Registers
  stack : List UInt8
  setup : Setup
  tracing : Bool
  deriving DecidableEq

def carryover (engine : Engine) : Carryover where
  registers := engine.machine.registers
  stack := engine.machine.stack
  setup := engine.setup
  tracing := engine.tracing

theorem loaded_eq_of_carryover {left right : Engine} (same : left.carryover = right.carryover)
    (image : List UInt8) (fits : image.length < memorySize + 1) :
    left.loaded image fits = right.loaded image fits := by
  simp only [carryover, setup, Machine.setup, Carryover.mk.injEq, Setup.mk.injEq] at same
  obtain ⟨registers, stack, ⟨entry, placement, stackTop⟩, tracing⟩ := same
  simp only [loaded, registers, stack, entry, placement, stackTop, tracing]

theorem cleared_eq_of_setup {left right : Engine} (same : left.setup = right.setup) :
    left.cleared = right.cleared.withTracing left.tracing := by
  simp only [cleared, withTracing, Machine.reset_eq_of_setup same]

theorem setup_after {operations : List Operation} (engine : Engine)
    (stays : ∀ operation ∈ operations, operation.movesStack = false) :
    (engine.after operations).setup = engine.setup := by
  apply invariant_after (motive := fun reached => reached.setup = engine.setup)
  · intro operation member reached same
    exact (Operation.setup_perform (stays operation member) reached).trans same
  · rfl

end Engine

namespace Operation

theorem perform_load_eq_of_carryover {left right : Engine}
    (same : left.carryover = right.carryover) {image : List UInt8}
    (fits : image.length ≤ memorySize) :
    (load image).perform left = (load image).perform right := by
  have entry : left.machine.entry = right.machine.entry :=
    congrArg (fun carried => carried.setup.entry) same
  rw [perform_load fits, perform_load fits, Engine.loaded_eq_of_carryover same, entry]

end Operation

theorem reset_leaves_no_residue (settings : Settings) (history : List Operation)
    (stays : ∀ operation ∈ history, operation.movesStack = false) :
    let fresh := Engine.ofSettings settings
    let engine := (Operation.reset.perform (fresh.after history)).engine
    engine.machine = .ofSettings settings ∧
    engine.tally = {} ∧
    engine.state = .running ∧
    ∀ later : List Operation,
      (turns later engine).map Turn.untraced = (turns later fresh).map Turn.untraced ∧
      turns later engine = turns later (fresh.after [.setTracing engine.tracing]) := by
  intro fresh engine
  have renewed : engine = fresh.withTracing engine.tracing :=
    Engine.cleared_eq_of_setup (fresh.setup_after stays)
  refine ⟨congrArg Engine.machine renewed, congrArg Engine.tally renewed,
    congrArg Engine.state renewed, ?_⟩
  intro later
  constructor
  · apply untraced_turns
    rw [renewed]
    rfl
  · exact congrArg (turns later) renewed

-- A stack in memory, a moved program counter, a tally written by hand and tracing turned on.
theorem reset_leaves_no_residue_of_pushes :
    let settings : Settings := { startPc := 2, placement := .ram, stackTop := 0x80 }
    let history : List Operation :=
      [.load [0, 0, 0x45, 7, 0xFF], .setTracing true, .run, .push 9, .setPc 300, .record none 4]
    let fresh := Engine.ofSettings settings
    let used := fresh.after history
    let engine := (Operation.reset.perform used).engine
    let later : List Operation := [.load [0, 0, 0x46, 1], .run, .pop]
    used.state = .halted .faulted ∧
    used.machine.stackDepth = 2 ∧
    engine.machine = .ofSettings settings ∧
    (turns later engine).map Turn.untraced = (turns later fresh).map Turn.untraced ∧
    turns later engine = turns later (fresh.after [.setTracing true]) := by
  intro settings history fresh used engine later
  have stays : ∀ operation ∈ history, operation.movesStack = false := by decide
  obtain ⟨renewed, -, -, sameTurns⟩ := reset_leaves_no_residue settings history stays
  obtain ⟨untraced, traced⟩ := sameTurns later
  have on : (Operation.reset.perform (fresh.after history)).engine.tracing = true := by
    decide +kernel
  rw [on] at traced
  exact ⟨by decide +kernel, by decide +kernel, renewed, untraced, traced⟩

theorem load_hides_the_past :
    (∀ (left right : Engine) (image : List UInt8), left.carryover = right.carryover →
      image.length ≤ memorySize →
        ((Operation.load image).perform left).reply = .done ∧
        ∀ later : List Operation,
          turns (.load image :: later) left = turns (.load image :: later) right) ∧
    (∀ (engine : Engine) (image : List UInt8), memorySize < image.length →
      (Operation.load image).perform engine =
        ⟨engine, [], .trapped (.outOfRange (.memory memorySize))⟩) := by
  constructor
  · intro left right image same fits
    constructor
    · rw [Operation.perform_load fits]
    · intro later
      rw [turns, turns, Operation.perform_load_eq_of_carryover same fits]
  · intro engine image large
    exact Operation.perform_load_error large engine

-- The image is an LDI without its operands, which are read from behind it.
theorem load_hides_the_past_from_cut_off_operands :
    let fresh := Engine.ofSettings {}
    let used := fresh.after [.load (List.replicate 9 0xFF), .run]
    let later : List Operation := [.run, .readRegister 0]
    used.machine.memory.byte? 1 ≠ fresh.machine.memory.byte? 1 ∧
    used.state = .halted .faulted ∧
    turns (.load [0x82] :: later) used = turns (.load [0x82] :: later) fresh ∧
    (Operation.load (List.replicate 257 0)).perform used =
      ⟨used, [], .trapped (.outOfRange (.memory memorySize))⟩ := by
  intro fresh used later
  obtain ⟨hides, refuses⟩ := load_hides_the_past
  have carried : used.carryover = fresh.carryover := by decide +kernel
  have large : memorySize < (List.replicate 257 (0 : UInt8)).length := by
    rw [List.length_replicate]
    decide
  exact ⟨by decide +kernel, by decide +kernel, (hides used fresh [0x82] carried (by decide)).2 later,
    refuses used _ large⟩

end LS8
