import LS8.Proofs.Addresses
import LS8.Proofs.SnapshotLog

set_option autoImplicit false

namespace LS8.Snapshot

theorem byteUpTo_eq (highest : Nat) (machine : Machine) (offset : Nat) :
    byteUpTo highest machine offset =
      if machine.pc + offset ≤ highest then
        .ok ((machine.memory.byte? (machine.pc + offset)).getD 0)
      else .error .addressOverflow := by
  unfold byteUpTo addressUpTo
  split <;> rfl

theorem captureUpTo_eq (highest : Nat) (machine : Machine) :
    captureUpTo highest machine =
      if machine.pc + 2 ≤ highest then .ok (ofMachine machine) else .error .addressOverflow := by
  split
  next room => exact captureUpTo_of_le room
  next beyond =>
    have last : byteUpTo highest machine 2 = .error .addressOverflow := by
      rw [byteUpTo_eq, if_neg beyond]
    -- Whichever sum is the first to overflow, the defect is the same.
    rw [captureUpTo, last, byteUpTo_eq, byteUpTo_eq]
    split <;> split <;> rfl

theorem captureUpTo_addressSpace (machine : Machine) :
    captureUpTo (addressSpace - 1) machine = capture machine := by
  have bound : machine.pc + 2 ≤ addressSpace - 1 ↔ machine.pc + 2 < addressSpace :=
    Nat.le_sub_one_iff_lt (by decide)
  simp only [captureUpTo_eq, capture, bound]

theorem capture_shows_memory (machine : Machine) :
    capture machine = captureUpTo (addressSpace - 1) machine ∧
    (machine.pc + 2 < addressSpace →
      ∃ snapshot, capture machine = .ok snapshot ∧ snapshot.pc = machine.pc ∧
        snapshot.registers = machine.registers ∧
        ∀ offset : Fin 3, snapshot.bytes.get offset =
          if inside : machine.pc + offset < memorySize then
            machine.memory.cells[machine.pc + offset]
          else 0) ∧
    (addressSpace ≤ machine.pc + 2 → capture machine = .error .addressOverflow) := by
  refine ⟨(captureUpTo_addressSpace machine).symm, ?_, ?_⟩
  · intro room
    exact ⟨ofMachine machine, if_pos room, rfl, rfl, bytes_ofMachine machine⟩
  · exact fun beyond => if_neg (Nat.not_lt.mpr beyond)

theorem capture_shows_memory_to_the_last_address :
    let fresh := Machine.ofSettings {}
    let machine : Machine := { fresh with memory := (Memory.zero.put 254 7).put 255 8, pc := 254 }
    (∃ snapshot, capture machine = .ok snapshot ∧ snapshot.pc = 254 ∧
      snapshot.bytes.get 0 = 7 ∧ snapshot.bytes.get 1 = 8 ∧ snapshot.bytes.get 2 = 0) ∧
    (∃ snapshot, capture { fresh with pc := addressSpace - 3 } = .ok snapshot ∧
      snapshot.pc = addressSpace - 3 ∧ snapshot.bytes.get 2 = 0) ∧
    capture { fresh with pc := addressSpace - 2 } = .error .addressOverflow := by
  intro fresh machine
  obtain ⟨-, inside, -⟩ := capture_shows_memory machine
  obtain ⟨-, behind, -⟩ := capture_shows_memory { fresh with pc := addressSpace - 3 }
  obtain ⟨-, -, beyond⟩ := capture_shows_memory { fresh with pc := addressSpace - 2 }
  refine ⟨?_, ?_, beyond (by decide)⟩
  · obtain ⟨snapshot, taken, here, -, bytes⟩ := inside (by decide)
    exact ⟨snapshot, taken, here, (bytes 0).trans (by decide),
      (bytes 1).trans (by decide), (bytes 2).trans (by decide)⟩
  · obtain ⟨snapshot, taken, here, -, bytes⟩ := behind (by decide)
    exact ⟨snapshot, taken, here, (bytes 2).trans (by decide)⟩

theorem capture_at_the_last_address_overflows :
    let machine : Machine := { Machine.ofSettings {} with pc := addressSpace - 1 }
    machine.pc < addressSpace ∧ memorySize ≤ machine.pc ∧
    (∀ snapshot, capture machine ≠ .ok snapshot) ∧
    capture machine = .error .addressOverflow := by
  intro machine
  have overflow : capture machine = .error .addressOverflow := if_neg (by decide)
  exact ⟨by decide, by decide, by simp [overflow], overflow⟩

end LS8.Snapshot
