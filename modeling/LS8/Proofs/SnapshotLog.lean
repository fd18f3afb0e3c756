import LS8.Proofs.Attempts

set_option autoImplicit false

namespace LS8

def sinkCalls (emitted : List Emission) : List Emission :=
  emitted.filter fun emission => emission.event?.isNone

@[simp]
theorem sinkCalls_append (before after : List Emission) :
    sinkCalls (before ++ after) = sinkCalls before ++ sinkCalls after :=
  List.filter_append ..

@[simp]
theorem sinkCalls_event (logged : Event) : sinkCalls [.event logged] = [] := rfl

@[simp]
theorem sinkCalls_printed (values : List UInt8) :
    sinkCalls (values.map .printed) = values.map .printed := by
  simp [sinkCalls, Emission.event?]

namespace Engine

theorem sinkCalls_opening {engine : Engine} (traced : engine.tracing = true) :
    sinkCalls engine.opening = [.snapshot (.ofMachine engine.machine)] := by
  rw [opening, shown, if_pos traced]
  cases engine.machine.fetched <;> rfl

theorem sinkCalls_attempt {engine : Engine} (traced : engine.tracing = true) :
    sinkCalls engine.attempt =
      .snapshot (.ofMachine engine.machine) ::
        (printedValues (tick.run engine).emitted).map .printed := by
  rw [attempt, sinkCalls_append, sinkCalls_opening traced, sinkCalls_printed]
  rfl

theorem sinkCalls_attempts {engine : Engine} (traced : engine.tracing = true) (count : Nat) :
    sinkCalls (engine.attempts count) =
      (List.range count).flatMap fun index =>
        .snapshot (.ofMachine (engine.afterTicks index).machine) ::
          (printedValues (tick.run (engine.afterTicks index)).emitted).map .printed := by
  simp only [attempts, sinkCalls, List.filter_flatMap]
  congr 1
  funext index
  exact sinkCalls_attempt (by rw [tracing_afterTicks, traced])

theorem snapshots_attempt {engine : Engine} (traced : engine.tracing = true) :
    snapshots engine.attempt = [.ofMachine engine.machine] := by
  simp [attempt, traced]

theorem snapshots_attempts {engine : Engine} (traced : engine.tracing = true) (count : Nat) :
    snapshots (engine.attempts count) =
      (List.range count).map fun index => .ofMachine (engine.afterTicks index).machine := by
  rw [attempts, snapshots, List.filterMap_flatMap, List.map_eq_flatMap]
  congr 1
  funext index
  exact snapshots_attempt (by rw [tracing_afterTicks, traced])

end Engine

theorem Snapshot.bytes_ofMachine (machine : Machine) (offset : Fin 3) :
    (ofMachine machine).bytes[offset] =
      if inside : machine.pc + offset < memorySize then machine.memory.cells[machine.pc + offset]
      else 0 := by
  by_cases inside : machine.pc + offset < memorySize
  · simp [ofMachine, Memory.byte?, inside]
  · simp [ofMachine, Memory.byte?, inside]

namespace Engine

theorem snapshots_complete (engine : Engine) (running : engine.state = .running)
    (traced : engine.tracing = true) :
    let done := run.run engine
    let attempted := done.state.tally.retired - engine.tally.retired + failures done.result
    let before (index : Nat) : Machine := (engine.afterTicks index).machine
    engine.tally.retired ≤ done.state.tally.retired ∧
    (∀ index < attempted, (engine.afterTicks index).Attempting) ∧
    ¬(engine.afterTicks attempted).Attempting ∧
    (snapshots done.emitted).length = attempted ∧
    (∀ (index : Nat) (snapshot : Snapshot), (snapshots done.emitted)[index]? = some snapshot →
      snapshot.pc = (before index).pc ∧
      snapshot.registers = (before index).registers ∧
      ∀ offset : Fin 3, snapshot.bytes[offset] =
        if inside : (before index).pc + offset < memorySize then
          (before index).memory.cells[(before index).pc + offset]
        else 0) ∧
    ((snapshots done.emitted).map Snapshot.pc).Pairwise (· < ·) ∧
    sinkCalls done.emitted =
      (List.range attempted).flatMap fun index =>
        .snapshot (.ofMachine (before index)) ::
          (printedValues (tick.run (engine.afterTicks index)).emitted).map .printed := by
  intro done attempted before
  obtain ⟨ending, recorded⟩ := recorded_run engine running
  have shown : snapshots done.emitted =
      (List.range attempted).map fun index => .ofMachine (before index) := by
    rw [recorded.emitted, snapshots_append, snapshots_event, List.append_nil,
      snapshots_attempts traced]
  refine ⟨recorded.tally_le, recorded.attempting, recorded.stopped, ?_, ?_, ?_, ?_⟩
  · rw [shown, List.length_map, List.length_range]
  · intro index snapshot listed
    rw [shown, List.getElem?_map, Option.map_eq_some_iff] at listed
    obtain ⟨position, found, rfl⟩ := listed
    obtain ⟨inside, rfl⟩ := List.getElem?_eq_some_iff.mp found
    rw [List.getElem_range]
    exact ⟨rfl, rfl, Snapshot.bytes_ofMachine _⟩
  · rw [shown, List.map_map, List.pairwise_map]
    apply List.pairwise_lt_range.imp_of_mem
    intro first second _ inside order
    exact pc_lt_of_attempting recorded.attempting order (List.mem_range.mp inside)
  · rw [recorded.emitted, sinkCalls_append, sinkCalls_event, List.append_nil,
      sinkCalls_attempts traced]

-- With its stack right above it in memory, the program pushes a HLT over the PRN that comes next.
theorem snapshots_complete_of_rewritten_code :
    let image : List UInt8 := [0x82, 0, 1, 0x47, 0, 0x45, 0, 0x47, 0]
    let settings : Settings := { traceInstructions := true, placement := .ram, stackTop := 8 }
    let engine := ((load image).run (.ofSettings settings)).state
    let done := run.run engine
    (snapshots done.emitted).length = 4 ∧
    (snapshots done.emitted).map (fun snapshot => (snapshot.pc, snapshot.bytes.toList)) =
      [(0, [0x82, 0, 1]), (3, [0x47, 0, 0x45]), (5, [0x45, 0, 0x47]), (7, [0x01, 0, 0])] ∧
    (sinkCalls done.emitted).map Emission.printed? = [none, none, some 1, none, none] ∧
    ((snapshots done.emitted).map Snapshot.pc).Pairwise (· < ·) ∧
    sinkCalls done.emitted =
      (List.range 4).flatMap fun index =>
        .snapshot (.ofMachine (engine.afterTicks index).machine) ::
          (printedValues (tick.run (engine.afterTicks index)).emitted).map .printed := by
  intro image settings engine done
  have attempted :
      (run.run engine).state.tally.retired - engine.tally.retired +
        failures (run.run engine).result = 4 := by
    decide +kernel
  obtain ⟨-, -, -, length, -, ordered, received⟩ := snapshots_complete engine rfl rfl
  refine ⟨length.trans attempted, by decide +kernel, by decide +kernel, ordered, ?_⟩
  rw [received, attempted]

end Engine

end LS8
