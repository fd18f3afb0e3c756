import LS8.Engine.Session
import LS8.Proofs.Loading
import LS8.Proofs.Runs

set_option autoImplicit false

namespace LS8

structure Setup where
  entry : UInt8
  placement : StackPlacement
  stackTop : UInt8
  deriving DecidableEq

namespace Machine

def setup (machine : Machine) : Setup where
  entry := machine.entry
  placement := machine.placement
  stackTop := machine.stackTop

def Frame.setup (frame : Frame) : Setup where
  entry := frame.entry
  placement := frame.placement
  stackTop := frame.stackTop

theorem reset_eq_of_setup {left right : Machine} (same : left.setup = right.setup) :
    left.reset = right.reset := by
  simp only [setup, Setup.mk.injEq] at same
  obtain ⟨entry, placement, stackTop⟩ := same
  simp only [reset, entry, placement, stackTop]

theorem setup_transition {machine : Machine} {done : Retirement}
    (completed : machine.transition = .ok done) : done.machine.setup = machine.setup :=
  congrArg Frame.setup (frame_transition completed)

theorem setup_load {image : List UInt8} {machine changed : Machine}
    (done : machine.load image = .ok changed) : changed.setup = machine.setup := by
  by_cases fits : image.length ≤ memorySize
  · rw [load_eq_ok fits] at done
    simp only [← Except.ok.inj done, setup]
  · rw [load_eq_error (Nat.lt_of_not_le fits)] at done
    cases done

theorem setup_retired {inst : Instruction} {flow : Flow} {machine changed : Machine}
    (done : machine.retired inst flow = .ok changed) : changed.setup = machine.setup := by
  cases flow with
  | next =>
      rw [retired_eq_ok (.inl rfl) done]
      rfl
  | halt =>
      rw [retired_eq_ok (.inr rfl) done]
      rfl
  | jump target =>
      simp only [retired] at done
      split at done
      · cases done
      · split at done
        · cases done
        · cases done
          rfl

end Machine

namespace Engine

variable {τ ε α : Type}

def setup (engine : Engine) : Setup :=
  engine.machine.setup

theorem keeps_onMachine {view : Machine → τ} {action : Action UInt8 Machine ε α}
    (kept : action.Keeps view) : (onMachine action).Keeps fun engine => view engine.machine :=
  fun engine => kept engine.machine

theorem setup_tick : tick.Keeps setup := by
  intro engine
  have seen := ticked engine
  generalize tick.run engine = outcome at seen ⊢
  cases seen with
  | halted reason stopped => rfl
  | ended running past => rfl
  | trapped trap running inside failed => rfl
  | retired done running inside completed => exact Machine.setup_transition completed

theorem setup_loadMachine (image : List UInt8) : (loadMachine image).Keeps setup := by
  apply Action.keeps_bind
  · exact keeps_onMachine (Action.keeps_update fun _ _ => Machine.setup_load)
  · intro _
    exact Action.keeps_bind (Action.keeps_get _) fun _ => Action.keeps_emit _ _

theorem state_loadMachine (image : List UInt8) : (loadMachine image).Keeps Engine.state := by
  apply Action.keeps_bind fun _ => rfl
  intro _
  exact Action.keeps_bind (Action.keeps_get _) fun _ => Action.keeps_emit _ _

theorem setup_load (image : List UInt8) : (load image).Keeps setup := by
  apply Action.keeps_bind (setup_loadMachine image)
  intro _
  apply Action.keeps_modify
  intro _
  rfl

theorem keeps_run {view : Engine → τ} (kept : tick.Keeps view) : run.Keeps view := by
  intro engine
  apply invariant_run (motive := fun reached => view reached = view engine)
  · intro reached same
    exact (kept reached).trans same
  · rfl

theorem invariant_after {motive : Engine → Prop} {operations : List Operation}
    (step : ∀ operation ∈ operations, ∀ engine,
      motive engine → motive (operation.perform engine).engine)
    {engine : Engine} (holds : motive engine) : motive (engine.after operations) := by
  induction operations generalizing engine with
  | nil => exact holds
  | cons operation rest ih =>
      apply ih
      · intro next member
        exact step next (List.mem_cons_of_mem _ member)
      · exact step operation (List.mem_cons_self ..) engine holds

def cleared (engine : Engine) : Engine where
  machine := engine.machine.reset
  tracing := engine.tracing

end Engine

namespace Operation

inductive IsControl : Operation → Prop
  | load (image : List UInt8) : IsControl (.load image)
  | tick : IsControl .tick
  | run : IsControl .run
  | reset : IsControl .reset
  | setTracing (on : Bool) : IsControl (.setTracing on)

def movesStack : Operation → Bool
  | .setPlacement _ | .setStackTop _ => true
  | _ => false

theorem perform_load {image : List UInt8} (fits : image.length ≤ memorySize) (engine : Engine) :
    (load image).perform engine =
      ⟨engine.loaded image (Nat.lt_succ_of_le fits),
        [.event (.programLoaded image.length engine.machine.entry.toNat)], .done⟩ := by
  simp only [perform, answer, Engine.run_load fits]

theorem perform_load_error {image : List UInt8} (large : memorySize < image.length)
    (engine : Engine) :
    (load image).perform engine = ⟨engine, [], .trapped (.outOfRange (.memory memorySize))⟩ := by
  simp only [perform, answer, Engine.run_load_error large]

theorem perform_reset (engine : Engine) :
    reset.perform engine =
      ⟨engine.cleared, [.event (.machineReset engine.machine.entry.toNat)], .done⟩ := rfl

theorem state_recordGiven (given : Option Instruction) (depth : Nat) :
    (recordGiven given depth).Keeps Engine.state := by
  apply Action.keeps_bind fun _ => rfl
  intro inst
  apply Action.keeps_modify
  intro _
  rfl

theorem state_perform {operation : Operation} (direct : ¬operation.IsControl) (engine : Engine) :
    (operation.perform engine).engine.state = engine.state := by
  cases operation with
  | load image => exact absurd (.load image) direct
  | tick => exact absurd .tick direct
  | run => exact absurd .run direct
  | reset => exact absurd .reset direct
  | setTracing on => exact absurd (.setTracing on) direct
  | loadMachine image =>
      rw [perform, engine_answer]
      exact Engine.state_loadMachine image engine
  | record given depth =>
      rw [perform, engine_answer]
      exact state_recordGiven given depth engine
  | resetMachine => rfl
  | _ =>
      simp only [perform, change, engine_onMachine, engine_answer, Engine.run_onMachine,
        Action.run_inspect]

def touchesFrame : Operation → Bool
  | .load _ | .loadMachine _ | .tick | .run | .reset | .resetMachine => true
  | .retire .. | .setPc _ | .setPlacement _ | .setStackTop _ => true
  | _ => false

section Views

variable {τ ε α : Type}

theorem keeps_answer {view : Engine → τ} {action : EngineAction ε α} (kept : action.Keeps view)
    (succeeded : α → Reply) (failed : ε → Reply) (engine : Engine) :
    view (answer action succeeded failed engine).engine = view engine := by
  rw [engine_answer]
  exact kept engine

theorem keeps_onMachine {view : Machine → τ} {action : MachineAction α} (kept : action.Keeps view)
    (succeeded : α → Reply) (engine : Engine) :
    view (onMachine action succeeded engine).engine.machine = view engine.machine := by
  rw [engine_onMachine]
  exact kept engine.machine

theorem keeps_instructionOf (view : Machine → τ) (given : Option Instruction) :
    (instructionOf given).Keeps view := by
  cases given with
  | none => exact Action.keeps_inspect _ _
  | some inst => exact Action.keeps_pure _ _

end Views

theorem frame_loadMemory (address : Nat) (image : List UInt8) :
    (loadMemory address image).Keeps Machine.frame := by
  apply Action.keeps_update
  intro machine changed done
  obtain ⟨memory, -, stored⟩ := exists_of_bind_eq_ok done
  cases stored
  rfl

theorem frame_execute (given : Option Instruction) :
    (do let inst ← instructionOf given
        Machine.execute inst : MachineAction Flow).Keeps Machine.frame := by
  apply Action.keeps_bind (keeps_instructionOf Machine.frame given)
  intro inst
  exact Machine.frame_execute inst

theorem frame_recordGiven (given : Option Instruction) (depth : Nat) :
    (recordGiven given depth).Keeps fun engine => engine.machine.frame := by
  apply Action.keeps_bind
  · exact Engine.keeps_onMachine (keeps_instructionOf Machine.frame given)
  · intro inst
    apply Action.keeps_modify
    intro _
    rfl

theorem frame_perform {operation : Operation} (apart : operation.touchesFrame = false)
    (engine : Engine) :
    (operation.perform engine).engine.machine.frame = engine.machine.frame := by
  have reads {α : Type} (look : Machine → Except Trap α) (succeeded : α → Reply) :
      (onMachine (.inspect look) succeeded engine).engine.machine.frame = engine.machine.frame :=
    keeps_onMachine (Action.keeps_inspect _ _) succeeded engine
  have answers {ε α : Type} {action : EngineAction ε α}
      (kept : action.Keeps fun engine => engine.machine.frame) (succeeded : α → Reply)
      (failed : ε → Reply) :
      (answer action succeeded failed engine).engine.machine.frame = engine.machine.frame :=
    keeps_answer kept succeeded failed engine
  cases operation with
  | setTracing on => rfl
  | readRegister index => exact reads _ _
  | checkRegister index => exact reads _ _
  | writeRegister index value => exact keeps_onMachine (Machine.frame_writeRegister index value) _ _
  | readMemory address => exact reads _ _
  | writeMemory address value =>
      exact keeps_onMachine (Machine.frame_writeMemory address value) _ _
  | loadAt address image =>
      exact answers (Engine.keeps_onMachine (frame_loadMemory address image)) _ _
  | clearMemory => rfl
  | push value => exact keeps_onMachine (Machine.frame_push value) _ _
  | pop => exact keeps_onMachine Machine.frame_pop _ _
  | pushGrowable value => rfl
  | popGrowable => rfl
  | clearGrowable => rfl
  | fetch => exact reads _ _
  | execute given => exact keeps_onMachine (frame_execute given) _ _
  | record given depth => exact answers (frame_recordGiven given depth) _ _
  | capture => exact answers (Action.keeps_inspect _ _) _ _
  | dump => rfl
  | _ => cases apart

theorem setup_retireGiven (given : Option Instruction) (flow : Flow) :
    (retireGiven given flow).Keeps Machine.setup := by
  apply Action.keeps_bind
  · exact keeps_instructionOf Machine.setup given
  · intro inst
    exact Action.keeps_update fun _ _ => Machine.setup_retired

theorem setup_perform {operation : Operation} (stays : operation.movesStack = false)
    (engine : Engine) : (operation.perform engine).engine.setup = engine.setup := by
  have kept (apart : operation.touchesFrame = false) :
      (operation.perform engine).engine.setup = engine.setup :=
    congrArg Machine.Frame.setup (frame_perform apart engine)
  cases operation with
  | load image => exact keeps_answer (Engine.setup_load image) _ _ engine
  | loadMachine image => exact keeps_answer (Engine.setup_loadMachine image) _ _ engine
  | tick => exact keeps_answer Engine.setup_tick _ _ engine
  | run => exact keeps_answer (Engine.keeps_run Engine.setup_tick) _ _ engine
  | reset => rfl
  | resetMachine => rfl
  | setPc pc => rfl
  | setPlacement placement => cases stays
  | setStackTop value => cases stays
  | retire given flow =>
      exact keeps_answer (Engine.keeps_onMachine (setup_retireGiven given flow)) _ _ engine
  | _ => exact kept rfl

end Operation

end LS8
