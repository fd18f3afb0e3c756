import LS8.Engine.Session
import LS8.Proofs.BulkLoading
import LS8.Proofs.Stack

set_option autoImplicit false

namespace LS8

namespace Operation

inductive IsWrite : Operation → Prop
  | writeRegister (index : Nat) (value : UInt8) : IsWrite (.writeRegister index value)
  | writeMemory (address : Nat) (value : UInt8) : IsWrite (.writeMemory address value)
  | loadAt (address : Nat) (image : List UInt8) : IsWrite (.loadAt address image)
  | clearMemory : IsWrite .clearMemory

def writtenRegisters : Operation → List Nat
  | .writeRegister index _ => [index]
  | _ => []

def writtenCells : Operation → List Nat
  | .writeMemory address _ => [address]
  | .loadAt address image => List.range' address image.length
  | .clearMemory => List.range memorySize
  | _ => []

/--
An operation that writes neither to the stack pointer nor to the cells of the stack, which are as
many below the stack top as the stack is deep. Below address zero they go on at the end of memory.
-/
structure Spares (operation : Operation) (machine : Machine) : Prop where
  pointer : stackPointer ∉ operation.writtenRegisters
  cells : ∀ offset < machine.stackDepth,
    (machine.stackTop - 1 - .ofNat offset).toNat ∉ operation.writtenCells

end Operation

inductive History (settings : Settings) : List UInt8 → Engine → Prop
  | new : History settings [] (.ofSettings settings)
  | push {values : List UInt8} {engine : Engine} (history : History settings values engine)
      (value : UInt8) (room : settings.placement = .ram → values.length < 255) :
      History settings (value :: values) ((Operation.push value).perform engine).engine
  | pop {values : List UInt8} {engine : Engine} (history : History settings values engine) :
      History settings values.tail (Operation.pop.perform engine).engine
  | write {values : List UInt8} {engine : Engine} (history : History settings values engine)
      {operation : Operation} (writes : operation.IsWrite)
      (spares : settings.placement = .ram → operation.Spares engine.machine) :
      History settings values (operation.perform engine).engine

namespace Machine

structure SameStack (before after : Machine) : Prop where
  placement : after.placement = before.placement
  held : after.held = before.held

theorem SameStack.refl (machine : Machine) : SameStack machine machine :=
  ⟨rfl, rfl⟩

theorem cell_below_stackTop {machine : Machine} (placed : machine.placement = .ram) {offset : Nat}
    (few : offset < machine.stackDepth) :
    machine.pointer + .ofNat offset =
      machine.stackTop - 1 - .ofNat (machine.stackDepth - 1 - offset) := by
  have bound := machine.pointer.toNat_lt
  have bound' := machine.stackTop.toNat_lt
  rw [stackDepth_ram placed] at few ⊢
  apply UInt8.toNat.inj
  simp only [UInt8.toNat_add, UInt8.toNat_sub, UInt8.toNat_ofNat', UInt8.toNat_one] at few ⊢
  omega

theorem cell_spared {machine : Machine} {operation : Operation}
    (placed : machine.placement = .ram) (spares : operation.Spares machine) {offset : Nat}
    (few : offset < machine.stackDepth) :
    (machine.pointer + .ofNat offset).toNat ∉ operation.writtenCells := by
  rw [cell_below_stackTop placed few]
  exact spares.cells _ (by omega)

theorem sameStack_setRegister {machine : Machine} {index : Fin registerCount} (value : UInt8)
    (other : machine.placement = .ram → index ≠ ⟨stackPointer, stackPointer_lt⟩) :
    SameStack machine (machine.setRegister index value) where
  placement := rfl
  held := by
    refine held_congr rfl rfl rfl ?_ ?_
    · intro placed
      exact pointer_setRegister (other placed) machine value
    · intro _ offset _
      rfl

theorem sameStack_memory {machine : Machine} {memory : Memory}
    (cells : machine.placement = .ram → ∀ offset < machine.stackDepth,
      memory.byte? (machine.pointer + .ofNat offset).toNat =
        machine.memory.byte? (machine.pointer + .ofNat offset).toNat) :
    SameStack machine { machine with memory := memory } where
  placement := rfl
  held := by
    refine held_congr rfl rfl rfl ?_ ?_
    · intro _
      rfl
    · intro placed offset few
      exact Memory.get_eq_of_byte? (cells placed offset few)

theorem sameStack_writeRegister {machine : Machine} {index : Nat} (value : UInt8)
    (other : machine.placement = .ram → index ≠ stackPointer) :
    SameStack machine ((writeRegister index value).run machine).state := by
  cases checked : Registers.checkedIndex index with
  | error trap =>
      rw [run_writeRegister_error checked]
      exact .refl machine
  | ok inside =>
      rw [run_writeRegister checked]
      apply sameStack_setRegister
      rintro placed rfl
      exact other placed (Registers.checkedIndex_val checked).symm

theorem sameStack_writeMemory {machine : Machine} {address : Nat} (value : UInt8)
    (apart : machine.placement = .ram → ∀ offset < machine.stackDepth,
      (machine.pointer + .ofNat offset).toNat ≠ address) :
    SameStack machine ((writeMemory address value).run machine).state := by
  by_cases inside : address < memorySize
  · obtain ⟨byte, rfl⟩ : ∃ byte : UInt8, byte.toNat = address :=
      ⟨.ofNat address, UInt8.toNat_ofNat_of_lt' inside⟩
    rw [run_writeMemory]
    apply sameStack_memory
    intro placed offset few
    rw [Memory.byte?_put, if_neg (apart placed offset few)]
  · have failed : (writeMemory address value).run machine =
        ⟨machine, [], .error (.outOfRange (.memory address))⟩ := by
      apply Action.run_update_error
      simp [Memory.write, inside]
    rw [failed]
    exact .refl machine

theorem sameStack_loadMemory {machine : Machine} {address : Nat} {image : List UInt8}
    (apart : machine.placement = .ram → ∀ offset < machine.stackDepth,
      (machine.pointer + .ofNat offset).toNat ∉ List.range' address image.length) :
    SameStack machine ((Operation.loadMemory address image).run machine).state := by
  rcases Nat.lt_or_ge memorySize (address + image.length) with outside | fits
  · rw [Operation.run_loadMemory_error outside]
    exact .refl machine
  · rw [Operation.run_loadMemory fits]
    apply sameStack_memory
    intro placed offset few
    have spared := apart placed offset few
    rw [List.mem_range'_1] at spared
    rw [Memory.byte?_overlay_inside fits, if_neg spared]

end Machine

namespace Operation

theorem perform_push (value : UInt8) (engine : Engine) :
    (push value).perform engine =
      ⟨{ engine with machine := engine.machine.pushed value }, [], .done⟩ := by
  simp [perform, onMachine, answer, Machine.run_push]

theorem perform_pop_of_nil {engine : Engine} (empty : engine.machine.held = []) :
    pop.perform engine = ⟨engine, [], .trapped .stackUnderflow⟩ := by
  simp [perform, onMachine, answer, Machine.run_pop_of_nil empty]

theorem perform_pop_of_cons {engine : Engine} {value : UInt8} {rest : List UInt8}
    (top : engine.machine.held = value :: rest) :
    ∃ below : Machine,
      pop.perform engine = ⟨{ engine with machine := below }, [], .byte value⟩ ∧
        below.held = rest := by
  obtain ⟨below, popped, left⟩ := Machine.run_pop_of_cons top
  exact ⟨below, by simp [perform, onMachine, answer, popped], left⟩

theorem placement_perform_pop (engine : Engine) :
    (pop.perform engine).engine.machine.placement = engine.machine.placement := by
  simp only [perform, engine_onMachine]
  exact congrArg Machine.Frame.placement (Machine.frame_pop engine.machine)

theorem sameStack_of_write {operation : Operation} {engine : Engine} (writes : operation.IsWrite)
    (spares : engine.machine.placement = .ram → operation.Spares engine.machine) :
    Machine.SameStack engine.machine (operation.perform engine).engine.machine := by
  cases writes with
  | writeRegister index value =>
      simp only [perform, engine_onMachine]
      apply Machine.sameStack_writeRegister
      rintro placed rfl
      exact (spares placed).pointer (List.mem_singleton.mpr rfl)
  | writeMemory address value =>
      simp only [perform, engine_onMachine]
      apply Machine.sameStack_writeMemory
      rintro placed offset few rfl
      exact Machine.cell_spared placed (spares placed) few (List.mem_singleton.mpr rfl)
  | loadAt address image =>
      simp only [perform, engine_answer, Engine.run_onMachine]
      apply Machine.sameStack_loadMemory
      intro placed offset few
      exact Machine.cell_spared placed (spares placed) few
  | clearMemory =>
      simp only [perform, engine_onMachine, Action.run_bind, Action.run_modify, Action.run_get]
      apply Machine.sameStack_memory
      intro placed offset few
      have inside := Memory.toNat_lt_memorySize (engine.machine.pointer + .ofNat offset)
      exact absurd (List.mem_range.mpr inside) (Machine.cell_spared placed (spares placed) few)

def poppedReply : List UInt8 → Reply
  | [] => .trapped .stackUnderflow
  | value :: _ => .byte value

theorem reply_perform_pop (engine : Engine) :
    (pop.perform engine).reply = poppedReply engine.machine.held := by
  cases top : engine.machine.held with
  | nil => rw [perform_pop_of_nil top, poppedReply]
  | cons value rest =>
      obtain ⟨below, popped, -⟩ := perform_pop_of_cons top
      rw [popped, poppedReply]

theorem held_perform_pop (engine : Engine) :
    (pop.perform engine).engine.machine.held = engine.machine.held.tail := by
  cases top : engine.machine.held with
  | nil =>
      rw [perform_pop_of_nil top]
      exact top
  | cons value rest =>
      obtain ⟨below, popped, left⟩ := perform_pop_of_cons top
      rw [popped]
      exact left

end Operation

theorem Machine.held_ofSettings (settings : Settings) : (ofSettings settings).held = [] := by
  cases placed : settings.placement with
  | growable => exact held_growable placed
  | ram =>
      have pointer : (ofSettings settings).pointer = settings.stackTop := by
        simp [ofSettings, Machine.pointer, placed, initialRegisters, Registers.ofStackPointer,
          Registers.get]
      rw [held_eq_nil_iff, stackDepth_ram placed, pointer]
      simp [ofSettings]

theorem History.held {settings : Settings} {values : List UInt8} {engine : Engine}
    (history : History settings values engine) :
    engine.machine.placement = settings.placement ∧ engine.machine.held = values := by
  induction history with
  | new => exact ⟨rfl, Machine.held_ofSettings settings⟩
  | @push values engine history value room ih =>
      obtain ⟨placed, held⟩ := ih
      rw [Operation.perform_push]
      refine ⟨(Machine.placement_pushed _ _).trans placed, ?_⟩
      rw [Machine.held_pushed, held]
      intro inMemory
      rw [← Machine.length_held, held]
      exact room (placed ▸ inMemory)
  | @pop values engine history ih =>
      obtain ⟨placed, held⟩ := ih
      refine ⟨(Operation.placement_perform_pop engine).trans placed, ?_⟩
      rw [Operation.held_perform_pop, held]
  | @write values engine history operation writes spares ih =>
      obtain ⟨placed, held⟩ := ih
      have same := Operation.sameStack_of_write writes fun inMemory =>
        spares (placed ▸ inMemory)
      exact ⟨same.placement.trans placed, same.held.trans held⟩

theorem held_after_writes {writes : List Operation} {engine : Engine}
    (empty : engine.machine.held = [])
    (spares : ∀ operation ∈ writes,
      operation.IsWrite ∧ stackPointer ∉ operation.writtenRegisters) :
    (engine.after writes).machine.held = [] := by
  induction writes generalizing engine with
  | nil => exact empty
  | cons operation rest ih =>
      obtain ⟨writes, other⟩ := spares operation (List.mem_cons_self ..)
      -- An empty stack has no cells that a write could touch.
      have sparing : operation.Spares engine.machine :=
        ⟨other, by simp [Machine.held_eq_nil_iff.mp empty]⟩
      have same := Operation.sameStack_of_write writes fun _ => sparing
      exact ih (same.held.trans empty) fun later member =>
        spares later (List.mem_cons_of_mem _ member)

theorem stack_is_list {settings : Settings} {values : List UInt8} {engine : Engine}
    (history : History settings values engine) :
    engine.machine.stackDepth = values.length ∧
    (∀ value, ((Operation.push value).perform engine).reply = .done) ∧
    (Operation.pop.perform engine).reply = Operation.poppedReply values ∧
    ((Operation.pop.perform engine).reply = .trapped .stackUnderflow ↔ values = []) ∧
    (values = [] → (Operation.pop.perform engine).engine = engine) ∧
    (settings.placement = .ram → values.length = 255 → ∀ (value : UInt8) (writes : List Operation),
      (∀ operation ∈ writes,
        operation.IsWrite ∧ stackPointer ∉ operation.writtenRegisters) →
      let full := ((Operation.push value).perform engine).engine
      full.machine.stackDepth = 0 ∧
        (Operation.pop.perform (full.after writes)).reply = .trapped .stackUnderflow) := by
  obtain ⟨placed, held⟩ := history.held
  have depth : engine.machine.stackDepth = values.length := by
    rw [← Machine.length_held, held]
  have popped : (Operation.pop.perform engine).reply = Operation.poppedReply values := by
    rw [Operation.reply_perform_pop, held]
  refine ⟨depth, ?_, popped, ?_, ?_, ?_⟩
  · intro value
    rw [Operation.perform_push]
  · rw [popped]
    cases values <;> simp [Operation.poppedReply]
  · rintro rfl
    rw [Operation.perform_pop_of_nil held]
  · intro inMemory many value writes spares full
    have wrapped : full.machine.stackDepth = 0 := by
      change (Operation.perform (.push value) engine).engine.machine.stackDepth = 0
      rw [Operation.perform_push]
      change (engine.machine.pushed value).stackDepth = 0
      rw [Machine.stackDepth_pushed_ram (placed.trans inMemory), depth, many]
    have empty := Machine.held_eq_nil_iff.mpr wrapped
    refine ⟨wrapped, ?_⟩
    rw [Operation.reply_perform_pop, held_after_writes empty spares, Operation.poppedReply]

-- A stack of two values around the end of memory, with a write right below it.
theorem stack_is_list_around_zero :
    let settings : Settings := { placement := .ram, stackTop := 1 }
    let engine := Engine.after (.ofSettings settings) [.push 5, .push 6, .writeMemory 254 9]
    History settings [6, 5] engine ∧
    engine.machine.pointer = 255 ∧
    engine.machine.stackDepth = 2 ∧
    (Operation.pop.perform engine).reply = .byte 6 := by
  intro settings engine
  have pushed : History settings [6, 5] (Engine.after (.ofSettings settings) [.push 5, .push 6]) :=
    (History.new.push 5 (by decide)).push 6 (by decide)
  have history : History settings [6, 5] engine :=
    pushed.write (.writeMemory 254 9) fun _ => ⟨by decide, by decide +kernel⟩
  obtain ⟨depth, -, popped, -⟩ := stack_is_list history
  exact ⟨history, by decide +kernel, depth, popped⟩

end LS8
