import LS8.Proofs.Loading
import LS8.Proofs.Stack

set_option autoImplicit false

namespace LS8

theorem Memory.get_overlay_zero {image : List UInt8} {address : UInt8}
    (behind : image.length ≤ address.toNat) : (zero.overlay 0 image).get address = 0 := by
  have held := byte?_overlay zero 0 image address.toNat
  rw [if_pos (toNat_lt_memorySize address), ByteSource.ofList_zero,
    List.getElem?_eq_none behind, byte?_toNat, byte?_toNat] at held
  simpa [get, zero] using held

theorem Memory.cellsFrom_overlay_zero {image : List UInt8} {address : UInt8} {count : Nat}
    (behind : image.length ≤ address.toNat) (inside : address.toNat + count ≤ memorySize) :
    (zero.overlay 0 image).cellsFrom address count = List.replicate count 0 := by
  induction count generalizing address with
  | zero => rfl
  | succ count ih =>
      rw [cellsFrom, get_overlay_zero behind, List.replicate_succ]
      congr 1
      by_cases last : count = 0
      · rw [last]
        rfl
      · have next : (address + 1).toNat = address.toNat + 1 := by
          simp only [memorySize] at inside
          simp only [UInt8.toNat_add, UInt8.toNat_one]
          omega
        exact ih (by omega) (by omega)

namespace Engine

section Loaded

variable (image : List UInt8) (fits : image.length < memorySize + 1) {engine : Engine}

theorem registers_loaded (engine : Engine) :
    (engine.loaded image fits).machine.registers = engine.machine.registers := by
  simp only [loaded]

theorem stackDepth_loaded (engine : Engine) :
    (engine.loaded image fits).machine.stackDepth = engine.machine.stackDepth := by
  simp only [loaded, Machine.stackDepth]

theorem held_loaded_growable (growable : engine.machine.placement = .growable) :
    (engine.loaded image fits).machine.held = engine.machine.held := by
  simp only [loaded, Machine.held, growable]

theorem held_loaded_ram (inMemory : engine.machine.placement = .ram) :
    (engine.loaded image fits).machine.held =
      (Memory.zero.overlay 0 image).cellsFrom engine.machine.pointer
        engine.machine.stackDepth := by
  simp only [loaded, Machine.held, Machine.stackDepth, Machine.pointer, inMemory]

theorem held_loaded_behind (inMemory : engine.machine.placement = .ram)
    (below : engine.machine.pointer ≤ engine.machine.stackTop)
    (behind : image.length ≤ engine.machine.pointer.toNat) :
    (engine.loaded image fits).machine.held = List.replicate engine.machine.stackDepth 0 := by
  have deep := Machine.stackDepth_ram inMemory
  rw [UInt8.toNat_sub_of_le _ _ below] at deep
  rw [UInt8.le_iff_toNat_le] at below
  have bound := engine.machine.stackTop.toNat_lt
  have inside : engine.machine.pointer.toNat + engine.machine.stackDepth ≤ memorySize := by
    simp only [memorySize]
    omega
  rw [held_loaded_ram image fits inMemory, Memory.cellsFrom_overlay_zero behind inside]

end Loaded

theorem stack_after_load (engine : Engine) (image : List UInt8)
    (fits : image.length ≤ memorySize) :
    let loading := (load image).run engine
    loading.result = .ok () ∧
    loading.state.machine.registers = engine.machine.registers ∧
    loading.state.machine.stackDepth = engine.machine.stackDepth ∧
    (engine.machine.placement = .growable →
      ∀ values, loading.state.machine.Drains values ↔ engine.machine.Drains values) ∧
    (engine.machine.placement = .ram → engine.machine.pointer ≤ engine.machine.stackTop →
      image.length ≤ engine.machine.pointer.toNat →
      loading.state.machine.Drains (List.replicate engine.machine.stackDepth 0)) := by
  intro loading
  have placed : loading = _ := run_load fits engine
  rw [placed]
  have registers := registers_loaded image (Nat.lt_succ_of_le fits) engine
  have depth := stackDepth_loaded image (Nat.lt_succ_of_le fits) engine
  refine ⟨by simp only, registers, depth, ?_, ?_⟩
  · intro growable values
    rw [Machine.drains_iff, Machine.drains_iff, held_loaded_growable _ _ growable]
  · intro inMemory below behind
    rw [Machine.drains_iff, held_loaded_behind image _ inMemory below behind]

theorem stack_after_load_of_halt :
    let growable := ((onMachine (Machine.push 5)).run (ofSettings {})).state
    let ram := ((onMachine (Machine.push 5)).run (ofSettings { placement := .ram })).state
    ((load [1]).run growable).state.machine.Drains [5] ∧
    ((load [1]).run ram).state.machine.stackDepth = 1 ∧
    ((load [1]).run ram).state.machine.Drains [0] := by
  intro growable ram
  have drains : growable.machine.Drains [5] := Machine.drains_iff.mpr (by decide +kernel)
  have depth : ram.machine.stackDepth = 1 := by decide +kernel
  obtain ⟨-, -, -, kept, -⟩ := stack_after_load growable [1] (by decide)
  obtain ⟨-, -, depth', -, zeroed⟩ := stack_after_load ram [1] (by decide)
  refine ⟨(kept rfl [5]).mpr drains, depth'.trans depth, ?_⟩
  have zeros := zeroed rfl (by decide +kernel) (by decide +kernel)
  rwa [depth] at zeros

-- A value pushed to a stack in memory is lost when a program is loaded far below it.
theorem load_loses_stack_in_memory :
    let engine := ((onMachine (Machine.push 5)).run (ofSettings { placement := .ram })).state
    let loading := (load [1]).run engine
    engine.machine.pointer ≤ engine.machine.stackTop ∧
    [1].length ≤ engine.machine.pointer.toNat ∧
    loading.result = .ok () ∧
    engine.machine.Drains [5] ∧
    ¬loading.state.machine.Drains [5] := by
  intro engine loading
  have below : engine.machine.pointer ≤ engine.machine.stackTop := by decide +kernel
  have behind : [1].length ≤ engine.machine.pointer.toNat := by decide +kernel
  have placed : loading = _ := run_load (by decide) engine
  refine ⟨below, behind, by rw [placed], Machine.drains_iff.mpr (by decide +kernel), ?_⟩
  rw [Machine.drains_iff, placed, held_loaded_behind [1] _ rfl below behind]
  decide +kernel

end Engine

end LS8
