import LS8.Engine.Step
import LS8.Proofs.Effect

set_option autoImplicit false

namespace LS8

theorem Memory.byte?_overlay_zero {image : List UInt8} {address : Nat}
    (inside : address < image.length) (fits : image.length ≤ memorySize) :
    (Memory.zero.overlay 0 image).byte? address = image[address]? := by
  have held : address < memorySize := Nat.lt_of_lt_of_le inside fits
  simp [byte?_overlay, held, List.getElem?_eq_getElem inside]

theorem Memory.byte?_overlay_getD {image : List UInt8} {address : Nat}
    (inside : address < memorySize) :
    (Memory.zero.overlay 0 image).byte? address = some (image.getD address 0) := by
  have blank : Memory.zero.byte? address = some 0 := by
    simp [byte?, zero, inside]
  rw [byte?_overlay, if_pos inside, ByteSource.ofList_zero, blank, List.getD_eq_getElem?_getD]
  cases image[address]? <;> rfl

theorem Memory.toList_overlay_zero {image : List UInt8} (fits : image.length ≤ memorySize) :
    (Memory.zero.overlay 0 image).toList =
      image ++ List.replicate (memorySize - image.length) 0 := by
  apply List.ext_getElem
  · simp [toList, fits]
  · intro address left right
    have held : address < memorySize := by simpa [toList] using left
    by_cases inside : address < image.length
    · simp [toList, overlay, inside]
    · simp [toList, overlay, zero, inside, List.getElem_append]

namespace Engine

def loaded (image : List UInt8) (fits : image.length < memorySize + 1) (engine : Engine) :
    Engine where
  machine :=
    { engine.machine with
      memory := Memory.zero.overlay 0 image
      programEnd := ⟨image.length, fits⟩
      pc := engine.machine.entry.toNat }
  tracing := engine.tracing

theorem run_load {image : List UInt8} (fits : image.length ≤ memorySize) (engine : Engine) :
    (load image).run engine =
      ⟨engine.loaded image (Nat.lt_succ_of_le fits),
        [.event (.programLoaded image.length engine.machine.entry.toNat)], .ok ()⟩ := by
  have placed := Machine.load_eq_ok fits engine.machine
  simp [load, loadMachine, restart, loaded, Action.run_bind, Action.run_update_ok placed]

theorem run_load_error {image : List UInt8} (large : memorySize < image.length)
    (engine : Engine) :
    (load image).run engine = ⟨engine, [], .error (.outOfRange (.memory memorySize))⟩ := by
  have refused := Machine.load_eq_error large engine.machine
  simp [load, loadMachine, Action.run_bind, Action.run_update_error refused]

end Engine

end LS8
