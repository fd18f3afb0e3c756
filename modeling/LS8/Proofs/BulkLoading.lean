import LS8.Engine.Session
import LS8.Proofs.Effect

set_option autoImplicit false

namespace LS8

namespace Memory

variable {memory : Memory} {base : Nat} {image : List UInt8}

theorem loadAt_inside (fits : base + image.length ≤ memorySize) :
    memory.loadAt base image = .ok (memory.overlay base image) := by
  have counted : base + image.length < addressSpace := Nat.lt_of_le_of_lt fits (by decide)
  rw [loadAt, if_pos counted, store, if_pos fits]
  rfl

theorem loadAt_outside (outside : memorySize < base + image.length)
    (counted : base + image.length < addressSpace) :
    memory.loadAt base image = .error (.raised (.outOfRange (.memory (max memorySize base)))) := by
  rw [loadAt, if_pos counted, store, if_neg (Nat.not_le.mpr outside)]
  rfl

theorem loadAt_overflow (beyond : addressSpace ≤ base + image.length) :
    memory.loadAt base image = .error (.defect .addressOverflow) := by
  rw [loadAt, if_neg (Nat.not_lt.mpr beyond)]

theorem byte?_overlay_inside (fits : base + image.length ≤ memorySize) (address : Nat) :
    (memory.overlay base image).byte? address =
      if base ≤ address ∧ address < base + image.length then image[address - base]?
      else memory.byte? address := by
  rw [byte?_overlay, ByteSource.ofList]
  by_cases here : base ≤ address ∧ address < base + image.length
  · have held : address - base < image.length := by omega
    rw [if_pos (Nat.lt_of_lt_of_le here.2 fits), if_pos here, if_pos here.1,
      List.getElem?_eq_getElem held]
    rfl
  · have none : (if base ≤ address then image[address - base]? else none) = none := by
      split
      · exact List.getElem?_eq_none (by omega)
      · rfl
    rw [if_neg here, none, Option.none_or]
    split
    · rfl
    next outside => simp [byte?, outside]

end Memory

namespace Operation

variable {base : Nat} {image : List UInt8}

theorem run_loadMemory (fits : base + image.length ≤ memorySize) (machine : Machine) :
    (loadMemory base image).run machine =
      ⟨{ machine with memory := machine.memory.overlay base image }, [], .ok ()⟩ := by
  apply Action.run_update_ok
  simp [Memory.loadAt_inside fits]

def overrun (base : Nat) (image : List UInt8) : Failure Trap :=
  if base + image.length < addressSpace then .raised (.outOfRange (.memory (max memorySize base)))
  else .defect .addressOverflow

theorem run_loadMemory_error (outside : memorySize < base + image.length) (machine : Machine) :
    (loadMemory base image).run machine = ⟨machine, [], .error (overrun base image)⟩ := by
  apply Action.run_update_error
  by_cases counted : base + image.length < addressSpace
  · rw [Memory.loadAt_outside outside counted, overrun, if_pos counted]
    rfl
  · rw [Memory.loadAt_overflow (Nat.not_lt.mp counted), overrun, if_neg counted]
    rfl

theorem placing_exact_or_nothing (base : Nat) (image : List UInt8) (machine : Machine) :
    let placing := (loadMemory base image).run machine
    placing.emitted = [] ∧
    (placing.result = .ok () ↔ base + image.length ≤ 256) ∧
    (base + image.length ≤ 256 →
      placing.state = { machine with memory := placing.state.memory } ∧
      ∀ address, placing.state.memory.byte? address =
        if base ≤ address ∧ address < base + image.length then image[address - base]?
        else machine.memory.byte? address) ∧
    (256 < base + image.length →
      placing.state = machine ∧
      (base + image.length < addressSpace →
        placing.result = .error (.raised (.outOfRange (.memory (max 256 base))))) ∧
      (addressSpace ≤ base + image.length →
        placing.result = .error (.defect .addressOverflow))) := by
  intro placing
  rcases Nat.lt_or_ge 256 (base + image.length) with outside | fits
  · have failed : placing = _ := run_loadMemory_error outside machine
    rw [failed]
    refine ⟨rfl, ?_, ?_, fun _ => ⟨rfl, ?_, ?_⟩⟩
    · simp [Nat.not_le.mpr outside]
    · exact fun fits => absurd fits (Nat.not_le.mpr outside)
    · exact fun counted => congrArg Except.error (if_pos counted)
    · exact fun beyond => congrArg Except.error (if_neg (Nat.not_lt.mpr beyond))
  · have placed : placing = _ := run_loadMemory fits machine
    rw [placed]
    refine ⟨rfl, ?_, fun _ => ⟨rfl, Memory.byte?_overlay_inside fits⟩, ?_⟩
    · simp [fits]
    · exact fun outside => absurd fits (Nat.not_le.mpr outside)

-- Two bytes that end at the end of memory, two that end behind it, and none far behind it.
theorem placing_at_the_end_of_memory :
    let machine := Machine.ofSettings {}
    ((loadMemory 254 [7, 8]).run machine).result = .ok () ∧
    ((loadMemory 254 [7, 8]).run machine).state.memory.byte? 255 = some 8 ∧
    ((loadMemory 255 [7, 8]).run machine).result = .error (.raised (.outOfRange (.memory 256))) ∧
    ((loadMemory 255 [7, 8]).run machine).state = machine ∧
    ((loadMemory (addressSpace - 1) []).run machine).result =
      .error (.raised (.outOfRange (.memory (addressSpace - 1)))) ∧
    ((loadMemory (addressSpace - 1) [7]).run machine).result =
      .error (.defect .addressOverflow) := by
  intro machine
  obtain ⟨-, inside, placed, -⟩ := placing_exact_or_nothing 254 [7, 8] machine
  obtain ⟨-, -, -, across⟩ := placing_exact_or_nothing 255 [7, 8] machine
  obtain ⟨-, -, -, behind⟩ := placing_exact_or_nothing (addressSpace - 1) [] machine
  obtain ⟨-, -, -, beyond⟩ := placing_exact_or_nothing (addressSpace - 1) [7] machine
  have held := (placed (by decide)).2 255
  exact ⟨inside.mpr (by decide), held, (across (by decide)).2.1 (by decide),
    (across (by decide)).1, (behind (by decide)).2.1 (by decide),
    (beyond (by decide)).2.2 (by decide)⟩

theorem placing_at_the_last_address_overflows :
    let placing := (loadMemory (addressSpace - 1) [1]).run (Machine.ofSettings {})
    addressSpace - 1 < addressSpace ∧ 256 < addressSpace - 1 + [1].length ∧
    placing.result ≠ .error (.raised (.outOfRange (.memory (max 256 (addressSpace - 1))))) ∧
    placing.result = .error (.defect .addressOverflow) := by
  intro placing
  have failed : placing = _ := run_loadMemory_error (by decide) _
  have overflow : placing.result = .error (.defect .addressOverflow) := by
    rw [failed]
    rfl
  exact ⟨by decide, by decide, by simp [overflow], overflow⟩

end Operation

end LS8
