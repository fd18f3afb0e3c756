import Mathlib.Data.List.Basic
import LS8.Proofs.Accounts
import LS8.Proofs.Attempts
import LS8.Proofs.Halting

set_option autoImplicit false

namespace LS8

@[simp]
theorem events_append (before after : List Emission) :
    events (before ++ after) = events before ++ events after :=
  List.filterMap_append

@[simp]
theorem events_event (logged : Event) : events [.event logged] = [logged] := rfl

@[simp]
theorem events_printed (values : List UInt8) : events (values.map .printed) = [] := by
  induction values with
  | nil => rfl
  | cons value rest ih => exact ih

def Unrenewed : List Operation → Engine → Prop
  | [], _ => True
  | operation :: rest, engine =>
      operation.renews (operation.perform engine).reply = false ∧
        Unrenewed rest (operation.perform engine).engine

namespace Engine

theorem events_opening (engine : Engine) :
    events engine.opening = engine.machine.fetched.toOption.toList.map .execute := by
  rw [opening, shown]
  cases engine.tracing <;> cases engine.machine.fetched <;> rfl

theorem events_attempt (engine : Engine) :
    events engine.attempt = engine.machine.fetched.toOption.toList.map .execute := by
  rw [attempt, events_append, events_opening, events_printed, List.append_nil]

def decodedIn (count : Nat) (engine : Engine) : List Instruction :=
  (List.range count).filterMap fun index => (engine.afterTicks index).machine.fetched.toOption

theorem decodedIn_succ (count : Nat) (engine : Engine) :
    engine.decodedIn (count + 1) =
      engine.decodedIn count ++ (engine.afterTicks count).machine.fetched.toOption.toList := by
  simp only [decodedIn, List.filterMap_eq_flatMap_toList, List.range_succ, List.flatMap_append,
    List.flatMap_singleton]

theorem events_attempts (count : Nat) (engine : Engine) :
    events (engine.attempts count) = (engine.decodedIn count).map .execute := by
  rw [attempts, events, List.filterMap_flatMap, decodedIn,
    List.filterMap_eq_flatMap_toList, List.map_flatMap]
  congr 1
  funext index
  exact events_attempt _

theorem length_decodedIn {count : Nat} {engine : Engine}
    (fetched : ∀ index < count, ∃ inst, (engine.afterTicks index).machine.fetched = .ok inst) :
    (engine.decodedIn count).length = count := by
  induction count with
  | zero => rfl
  | succ count ih =>
      have before := ih fun index inside => fetched index (Nat.lt_succ_of_lt inside)
      obtain ⟨inst, last⟩ := fetched count (Nat.lt_succ_self count)
      rw [decodedIn_succ, List.length_append, before, last]
      rfl

theorem pairwise_pc_decodedIn {count : Nat} {engine : Engine}
    (attempting : ∀ index < count, (engine.afterTicks index).Attempting) :
    ((engine.decodedIn count).map Instruction.pc).Pairwise (· < ·) := by
  have here {machine : Machine} {inst : Instruction}
      (decoded : machine.fetched.toOption = some inst) : inst.pc = machine.pc := by
    cases fetched : machine.fetched with
    | error trap => simp [fetched, Except.toOption] at decoded
    | ok found =>
        rw [fetched] at decoded
        cases decoded
        exact (Instruction.lookup_of_decode fetched).2
  rw [List.pairwise_map, decodedIn, List.pairwise_filterMap]
  apply List.pairwise_lt_range.imp_of_mem
  intro first second _ inside order inst decoded later decoded'
  rw [here decoded, here decoded']
  exact pc_lt_of_attempting attempting order (List.mem_range.mp inside)

def decodedFailures (done : Outcome Emission Engine (Failure Fault) HaltReason) : Nat :=
  match done.result, done.state.machine.fetched with
  | .error _, .ok _ => 1
  | _, _ => 0

theorem Recorded.length_decodedIn {engine : Engine} {retired : Nat} {ending : Event}
    {done : Outcome Emission Engine (Failure Fault) HaltReason}
    (recorded : Recorded engine retired ending done) :
    (engine.decodedIn (retired + failures done.result)).length =
      retired + decodedFailures done := by
  have whole := Engine.length_decodedIn recorded.fetched
  cases result : done.result with
  | ok reason => simpa [failures, decodedFailures, result] using whole
  | error failure =>
      have failed := recorded.faulted failure result
      rw [failures, decodedIn_succ, List.length_append, whole, ← failed, decodedFailures, result]
      cases done.state.machine.fetched <;> rfl

theorem halted_of_run (engine : Engine) :
    ∃ reason, (run.run engine).state.state = .halted reason := by
  induction engine using run_induction with
  | last engine result final =>
      rw [run_concluded final]
      rcases ticked : (tick.run engine).result with failure | (_ | reason)
      · exact ⟨.faulted, faulted_of_tick ticked⟩
      · rw [ticked] at final
        cases final
      · exact ⟨reason, halted_of_tick ticked⟩
  | next engine going ih =>
      rw [run_running going]
      exact ih

theorem renews_of_running {engine : Engine} {reason : HaltReason}
    (halted : engine.state = .halted reason) {operation : Operation}
    (running : (operation.perform engine).engine.state = .running) :
    operation.renews (operation.perform engine).reply = true := by
  rcases (running_iff_of_halted halted operation).mp running with rfl | ⟨image, rfl, accepted⟩
  · rfl
  · rw [accepted]
    rfl

theorem halted_after {operations : List Operation} {engine : Engine} {reason : HaltReason}
    (halted : engine.state = .halted reason) (unrenewed : Unrenewed operations engine) :
    ∃ reason, (engine.after operations).state = .halted reason := by
  induction operations generalizing engine reason with
  | nil => exact ⟨reason, halted⟩
  | cons operation rest ih =>
      obtain ⟨here, later⟩ := unrenewed
      cases state : (operation.perform engine).engine.state with
      | halted next => exact ih state later
      | running =>
          rw [renews_of_running halted state] at here
          cases here

theorem event_log_well_formed (engine : Engine) (running : engine.state = .running) :
    let done := run.run engine
    let retired := done.state.tally.retired - engine.tally.retired
    let attempted := retired + failures done.result
    let executed := engine.decodedIn attempted
    engine.tally.retired ≤ done.state.tally.retired ∧
    (∀ index < attempted, (engine.afterTicks index).Attempting) ∧
    ¬(engine.afterTicks attempted).Attempting ∧
    (∃ ending, ending? done = some ending ∧
      events done.emitted = executed.map .execute ++ [ending]) ∧
    executed.length = retired + decodedFailures done ∧
    (executed.map Instruction.pc).Pairwise (· < ·) ∧
    ∀ operations, Unrenewed operations done.state →
      (tick.run (done.state.after operations)).emitted = [] ∧
      (run.run (done.state.after operations)).emitted = [] := by
  intro done retired attempted executed
  obtain ⟨ending, recorded⟩ := recorded_run engine running
  refine ⟨recorded.tally_le, recorded.attempting, recorded.stopped, ⟨ending, recorded.ending, ?_⟩,
    recorded.length_decodedIn, pairwise_pc_decodedIn recorded.attempting, ?_⟩
  · rw [recorded.emitted, events_append, events_attempts, events_event]
  · intro operations unrenewed
    obtain ⟨reason, halted⟩ := halted_of_run engine
    obtain ⟨later, still⟩ := halted_after halted unrenewed
    rw [tick_halted still, run_of_halted still]
    exact ⟨rfl, rfl⟩

-- The third instruction is decoded and then finds no value to pop.
theorem event_log_well_formed_of_underflow :
    let image : List UInt8 := [0x82, 0, 8, 0x47, 0, 0x46, 0]
    let engine := ((load image).run (.ofSettings {})).state
    let done := run.run engine
    (∃ ending, ending? done = some ending ∧
      events done.emitted = (engine.decodedIn 3).map .execute ++ [ending]) ∧
    (events done.emitted).map Event.message =
      ["execute pc=0 inst=LDI R0,8", "execute pc=3 inst=PRN R0", "execute pc=5 inst=POP R0",
        "fatal trap pc=5 trap=StackUnderflow"] ∧
    (run.run (done.state.after [.tick, .load (.replicate 257 0)])).emitted = [] := by
  intro image engine done
  have attempted :
      (run.run engine).state.tally.retired - engine.tally.retired +
        failures (run.run engine).result = 3 := by
    decide +kernel
  obtain ⟨-, -, -, logged, -, -, silent⟩ := event_log_well_formed engine rfl
  rw [attempted] at logged
  have unrenewed : Unrenewed [.tick, .load (.replicate 257 0)] done.state :=
    ⟨by decide +kernel, by decide +kernel, trivial⟩
  exact ⟨logged, by decide +kernel, (silent _ unrenewed).2⟩

end Engine

end LS8
