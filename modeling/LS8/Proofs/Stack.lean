import LS8.Proofs.Effect

set_option autoImplicit false

namespace LS8

theorem Memory.get_put (memory : Memory) (address value other : UInt8) :
    (memory.put address value).get other =
      if other = address then value else memory.get other := by
  have held := byte?_put memory address value other.toNat
  by_cases same : other = address
  · subst same
    simpa [byte?_toNat] using held
  · have apart : other.toNat ≠ address.toNat := fun equal => same (UInt8.toNat.inj equal)
    simpa [byte?_toNat, same, apart] using held

theorem Memory.get_eq_of_byte? {left right : Memory} {address : UInt8}
    (same : left.byte? address.toNat = right.byte? address.toNat) :
    left.get address = right.get address := by
  simpa [byte?_toNat] using same

/-- The bytes of `count` cells from `address` on, which go on at address zero where memory ends. -/
def Memory.cellsFrom (memory : Memory) (address : UInt8) : Nat → List UInt8
  | 0 => []
  | count + 1 => memory.get address :: memory.cellsFrom (address + 1) count

@[simp]
theorem Memory.length_cellsFrom (memory : Memory) (address : UInt8) (count : Nat) :
    (memory.cellsFrom address count).length = count := by
  induction count generalizing address with
  | zero => rfl
  | succ count ih => simp [cellsFrom, ih]

theorem Memory.cellsFrom_congr {left right : Memory} {address : UInt8} {count : Nat}
    (same : ∀ offset < count,
      left.get (address + .ofNat offset) = right.get (address + .ofNat offset)) :
    left.cellsFrom address count = right.cellsFrom address count := by
  induction count generalizing address with
  | zero => rfl
  | succ count ih =>
      have first : left.get address = right.get address := by
        simpa using same 0 (Nat.zero_lt_succ _)
      have others : left.cellsFrom (address + 1) count = right.cellsFrom (address + 1) count := by
        apply ih
        intro offset few
        have next : address + 1 + UInt8.ofNat offset = address + .ofNat (offset + 1) := by
          apply UInt8.toNat.inj
          simp only [UInt8.toNat_add, UInt8.toNat_ofNat', UInt8.toNat_one]
          omega
        rw [next]
        exact same (offset + 1) (Nat.succ_lt_succ few)
      rw [cellsFrom, cellsFrom, first, others]

namespace Machine

/--
The values on the stack, the most recent one first. In memory they lie from the stack pointer up
to the stack top.
-/
def held (machine : Machine) : List UInt8 :=
  match machine.placement with
  | .growable => machine.stack
  | .ram => machine.memory.cellsFrom machine.pointer machine.stackDepth

variable {machine : Machine}

theorem held_growable (placed : machine.placement = .growable) : machine.held = machine.stack := by
  simp [held, placed]

theorem held_ram (placed : machine.placement = .ram) :
    machine.held = machine.memory.cellsFrom machine.pointer machine.stackDepth := by
  simp [held, placed]

theorem stackDepth_ram (placed : machine.placement = .ram) :
    machine.stackDepth = (machine.stackTop - machine.pointer).toNat := by
  simp only [stackDepth, placed, pointer]

@[simp]
theorem length_held (machine : Machine) : machine.held.length = machine.stackDepth := by
  cases placed : machine.placement with
  | growable => simp [held_growable placed, stackDepth, placed]
  | ram => simp [held_ram placed]

theorem held_eq_nil_iff : machine.held = [] ↔ machine.stackDepth = 0 := by
  rw [← List.length_eq_zero_iff, length_held]

theorem pointer_eq_stackTop (placed : machine.placement = .ram)
    (empty : machine.stackDepth = 0) : machine.pointer = machine.stackTop := by
  have bound := machine.pointer.toNat_lt
  have bound' := machine.stackTop.toNat_lt
  rw [stackDepth_ram placed, UInt8.toNat_sub] at empty
  apply UInt8.toNat.inj
  omega

theorem held_congr {before after : Machine} (placement : after.placement = before.placement)
    (stackTop : after.stackTop = before.stackTop) (stack : after.stack = before.stack)
    (pointer : before.placement = .ram → after.pointer = before.pointer)
    (cells : before.placement = .ram → ∀ offset < before.stackDepth,
      after.memory.get (before.pointer + .ofNat offset) =
        before.memory.get (before.pointer + .ofNat offset)) :
    after.held = before.held := by
  cases placed : before.placement with
  | growable => rw [held_growable placed, held_growable (placement.trans placed), stack]
  | ram =>
      have depth : after.stackDepth = before.stackDepth := by
        rw [stackDepth_ram placed, stackDepth_ram (placement.trans placed), stackTop,
          pointer placed]
      rw [held_ram placed, held_ram (placement.trans placed), depth, pointer placed]
      exact Memory.cellsFrom_congr (cells placed)

theorem frame_pushed (machine : Machine) (value : UInt8) :
    (machine.pushed value).frame = machine.frame := by
  have kept := frame_push value machine
  rwa [run_push] at kept

theorem placement_pushed (machine : Machine) (value : UInt8) :
    (machine.pushed value).placement = machine.placement :=
  congrArg Frame.placement (frame_pushed machine value)

theorem pointer_pushed_ram (placed : machine.placement = .ram) (value : UInt8) :
    (machine.pushed value).pointer = machine.pointer - 1 := by
  rw [pushed_ram placed, pointer_setPointer]

theorem stackDepth_pushed_ram (placed : machine.placement = .ram) (value : UInt8) :
    (machine.pushed value).stackDepth = (machine.stackDepth + 1) % 256 := by
  have top : (machine.pushed value).stackTop = machine.stackTop :=
    congrArg Frame.stackTop (frame_pushed machine value)
  have bound := machine.pointer.toNat_lt
  rw [stackDepth_ram placed, stackDepth_ram ((placement_pushed machine value).trans placed), top,
    pointer_pushed_ram placed]
  simp only [UInt8.toNat_sub, UInt8.toNat_one]
  omega

theorem held_pushed (value : UInt8) (room : machine.placement = .ram → machine.stackDepth < 255) :
    (machine.pushed value).held = value :: machine.held := by
  cases placed : machine.placement with
  | growable =>
      rw [pushed_growable placed, held_growable placed, held_growable]
      exact placed
  | ram =>
      have left := room placed
      have deeper : (machine.pushed value).stackDepth = machine.stackDepth + 1 := by
        rw [stackDepth_pushed_ram placed, Nat.mod_eq_of_lt (by omega)]
      have cells : (machine.pushed value).memory =
          machine.memory.put (machine.pointer - 1) value := by
        rw [pushed_ram placed]
        rfl
      rw [held_ram placed, held_ram ((placement_pushed machine value).trans placed), deeper,
        pointer_pushed_ram placed, cells, Memory.cellsFrom, Memory.get_put, if_pos rfl,
        UInt8.sub_add_cancel]
      congr 1
      -- Only a push onto 255 values would write to a cell of the stack.
      apply Memory.cellsFrom_congr
      intro offset few
      have apart : machine.pointer + .ofNat offset ≠ machine.pointer - 1 := by
        intro same
        have equal := congrArg UInt8.toNat same
        have bound := machine.pointer.toNat_lt
        simp only [UInt8.toNat_add, UInt8.toNat_sub, UInt8.toNat_ofNat', UInt8.toNat_one] at equal
        omega
      rw [Memory.get_put, if_neg apart]

theorem popped_of_nil (empty : machine.held = []) : machine.popped = .error .stackUnderflow := by
  cases placed : machine.placement with
  | growable =>
      rw [held_growable placed] at empty
      simp [popped_growable placed, empty]
  | ram =>
      rw [popped_ram placed, if_pos (pointer_eq_stackTop placed (held_eq_nil_iff.mp empty))]

theorem popped_of_cons {value : UInt8} {rest : List UInt8} (top : machine.held = value :: rest) :
    ∃ below : Machine, machine.popped = .ok (value, below) ∧ below.held = rest := by
  cases placed : machine.placement with
  | growable =>
      rw [held_growable placed] at top
      refine ⟨{ machine with stack := rest }, by simp [popped_growable placed, top], ?_⟩
      exact held_growable placed
  | ram =>
      have depth := congrArg List.length top
      rw [length_held, List.length_cons] at depth
      have nonempty : machine.pointer ≠ machine.stackTop := by
        intro bottom
        rw [stackDepth_ram placed, bottom] at depth
        simp at depth
      rw [held_ram placed, depth, Memory.cellsFrom, List.cons.injEq] at top
      have placed' : (machine.setPointer (machine.pointer + 1)).placement = .ram := placed
      have shallower : (machine.setPointer (machine.pointer + 1)).stackDepth = rest.length := by
        have bound := machine.pointer.toNat_lt
        have bound' := machine.stackTop.toNat_lt
        rw [stackDepth_ram placed', pointer_setPointer]
        rw [stackDepth_ram placed] at depth
        change (machine.stackTop - (machine.pointer + 1)).toNat = rest.length
        simp only [UInt8.toNat_sub, UInt8.toNat_add, UInt8.toNat_one] at depth ⊢
        omega
      refine ⟨machine.setPointer (machine.pointer + 1), ?_, ?_⟩
      · rw [popped_ram placed, if_neg nonempty, top.1]
      · rw [held_ram placed', shallower, pointer_setPointer]
        exact top.2

inductive Drains : Machine → List UInt8 → Prop
  | empty {machine : Machine} (underflow : (pop.run machine).result = .error .stackUnderflow) :
      Drains machine []
  | next {machine : Machine} {value : UInt8} {values : List UInt8}
      (popped : (pop.run machine).result = .ok value)
      (rest : Drains (pop.run machine).state values) : Drains machine (value :: values)

theorem run_pop_of_nil (empty : machine.held = []) :
    pop.run machine = ⟨machine, [], .error .stackUnderflow⟩ := by
  rw [run_pop, popped_of_nil empty]

theorem run_pop_of_cons {value : UInt8} {rest : List UInt8} (top : machine.held = value :: rest) :
    ∃ below : Machine, pop.run machine = ⟨below, [], .ok value⟩ ∧ below.held = rest := by
  obtain ⟨below, popped, left⟩ := popped_of_cons top
  exact ⟨below, by rw [run_pop, popped], left⟩

theorem drains_held (machine : Machine) : machine.Drains machine.held := by
  generalize values : machine.held = held
  induction held generalizing machine with
  | nil => exact .empty (by rw [run_pop_of_nil values])
  | cons value rest ih =>
      obtain ⟨below, popped, left⟩ := run_pop_of_cons values
      refine .next (by rw [popped]) ?_
      rw [popped]
      exact ih below left

theorem Drains.eq_held {values : List UInt8} (drains : machine.Drains values) :
    values = machine.held := by
  induction drains with
  | @empty machine underflow =>
      cases values : machine.held with
      | nil => rfl
      | cons value rest =>
          obtain ⟨below, popped, -⟩ := run_pop_of_cons values
          rw [popped] at underflow
          cases underflow
  | @next machine value values popped rest ih =>
      cases top : machine.held with
      | nil =>
          rw [run_pop_of_nil top] at popped
          cases popped
      | cons first others =>
          obtain ⟨below, ran, left⟩ := run_pop_of_cons top
          rw [ran] at popped ih
          rw [ih, left, Except.ok.inj popped]

theorem drains_iff {values : List UInt8} : machine.Drains values ↔ values = machine.held :=
  ⟨Drains.eq_held, fun same => same ▸ drains_held machine⟩

end Machine

end LS8
