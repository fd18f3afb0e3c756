import LS8.Engine.Run
import LS8.Proofs.Effect

set_option autoImplicit false

namespace LS8

structure Retirement where
  inst : Instruction
  machine : Machine
  printed : List UInt8

def Retirement.state (done : Retirement) : RunState :=
  match done.inst.flow with
  | .halt => .halted .hlt
  | _ => .running

namespace Machine

def transition (machine : Machine) : Except Trap Retirement := do
  let inst ← machine.fetched
  let effect ← effect inst machine
  return ⟨inst, { effect.machine with pc := inst.pc + inst.width }, effect.printed⟩

theorem transition_of_fetched {machine : Machine} {inst : Instruction}
    (fetched : machine.fetched = .ok inst) :
    machine.transition = (effect inst machine).map fun effect =>
      ⟨inst, { effect.machine with pc := inst.pc + inst.width }, effect.printed⟩ := by
  simp only [transition, fetched, ok_bind]
  cases effect inst machine <;> rfl

theorem transition_of_not_fetched {machine : Machine} {trap : Trap}
    (failed : machine.fetched = .error trap) : machine.transition = .error trap := by
  simp [transition, failed]

theorem transition_eq_ok {machine : Machine} {done : Retirement}
    (retired : machine.transition = .ok done) :
    machine.fetched = .ok done.inst ∧
      ∃ effect, machine.effect done.inst = .ok effect ∧
        done.machine = { effect.machine with pc := machine.pc + done.inst.width } ∧
        done.printed = effect.printed := by
  cases fetched : machine.fetched with
  | error trap => simp [transition_of_not_fetched fetched] at retired
  | ok inst =>
      rw [transition_of_fetched fetched] at retired
      cases reached : effect inst machine with
      | error trap => simp [reached] at retired
      | ok effect =>
          simp only [reached, ok_map, Except.ok.injEq] at retired
          subst retired
          have here := (Instruction.lookup_of_decode fetched).2
          exact ⟨rfl, effect, reached, by rw [here], rfl⟩

theorem frame_effect {inst : Instruction} {machine : Machine} {effect : Effect}
    (reached : machine.effect inst = .ok effect) : effect.machine.frame = machine.frame := by
  have kept := frame_execute inst machine
  rw [run_execute, reached] at kept
  exact kept

theorem width_le_of_fetched {machine : Machine} {inst : Instruction}
    (fetched : machine.fetched = .ok inst) : inst.width ≤ 1 + maxOperands := by
  have known := (Instruction.lookup_of_decode fetched).1
  have few := Descriptor.operandCount_le_of_lookup known
  simp only [Instruction.width, Descriptor.width]
  omega

theorem retired_of_fetched {machine : Machine} {inst : Instruction}
    (fetched : machine.fetched = .ok inst) (inside : machine.pc < machine.programEnd)
    (changed : Machine) :
    changed.retired inst inst.flow = .ok { changed with pc := inst.pc + inst.width } := by
  have here := (Instruction.lookup_of_decode fetched).2
  have short := width_le_of_fetched fetched
  have small := machine.programEnd.isLt
  have room : inst.pc + inst.width < addressSpace := by
    simp only [addressSpace, maxOperands, memorySize] at *
    omega
  rcases inst.flow_eq with flow | flow <;> simp [flow, retired, room]

end Machine

namespace Engine

def shown (engine : Engine) : List Emission :=
  if engine.tracing then [.snapshot (.ofMachine engine.machine)] else []

def opening (engine : Engine) : List Emission :=
  engine.shown ++
    match engine.machine.fetched with
    | .ok inst => [.event (.execute inst)]
    | .error _ => []

def closing (done : Retirement) (engine : Engine) : List Emission :=
  match done.inst.flow with
  | .halt => [.event (.halted done.machine.pc (engine.tally.retired + 1))]
  | _ => []

def retire (done : Retirement) (engine : Engine) : Engine where
  machine := done.machine
  tally := engine.tally.record done.inst done.machine.stackDepth
  tracing := engine.tracing
  state := done.state

@[simp]
theorem printedValues_append (before after : List Emission) :
    printedValues (before ++ after) = printedValues before ++ printedValues after :=
  List.filterMap_append

@[simp]
theorem printedValues_printed (values : List UInt8) :
    printedValues (values.map .printed) = values := by
  induction values with
  | nil => rfl
  | cons value rest ih => exact congrArg (value :: ·) ih

@[simp]
theorem printedValues_event (logged : Event) : printedValues [.event logged] = [] := rfl

@[simp]
theorem snapshots_append (before after : List Emission) :
    snapshots (before ++ after) = snapshots before ++ snapshots after :=
  List.filterMap_append

@[simp]
theorem snapshots_event (logged : Event) : snapshots [.event logged] = [] := rfl

@[simp]
theorem snapshots_printed (values : List UInt8) : snapshots (values.map .printed) = [] := by
  induction values with
  | nil => rfl
  | cons value rest ih => exact ih

@[simp]
theorem snapshots_closing (done : Retirement) (engine : Engine) :
    snapshots (engine.closing done) = [] := by
  rw [closing]
  cases done.inst.flow <;> rfl

@[simp]
theorem printedValues_opening (engine : Engine) : printedValues engine.opening = [] := by
  rw [opening, shown]
  cases engine.tracing <;> cases engine.machine.fetched <;> rfl

@[simp]
theorem snapshots_opening (engine : Engine) :
    snapshots engine.opening =
      if engine.tracing then [Snapshot.ofMachine engine.machine] else [] := by
  rw [opening, shown]
  cases engine.tracing <;> cases engine.machine.fetched <;> rfl

@[simp]
theorem printedValues_closing (done : Retirement) (engine : Engine) :
    printedValues (engine.closing done) = [] := by
  rw [closing]
  cases done.inst.flow <;> rfl

theorem run_trace {engine : Engine} (inside : engine.machine.pc < engine.machine.programEnd) :
    trace.run engine = ⟨engine, engine.shown, .ok ()⟩ := by
  have small := engine.machine.programEnd.isLt
  have room : engine.machine.pc + 2 < addressSpace := by
    simp only [addressSpace, memorySize] at *
    omega
  rw [shown]
  cases traced : engine.tracing with
  | false => exact trace_off traced
  | true =>
      apply trace_on traced
      simp [Snapshot.capture, room]

theorem tick_attempt {engine : Engine} (running : engine.state = .running)
    (inside : engine.machine.pc < engine.machine.programEnd) :
    tick.run engine =
      let stepped := (step.recover (stepFailed engine.machine.pc)).run engine
      ⟨stepped.state, engine.shown ++ stepped.emitted, stepped.result⟩ := by
  rw [tick_running running inside, Action.run_bind_ok _ (run_trace inside)]

theorem tick_trapped {engine : Engine} {trap : Trap} (running : engine.state = .running)
    (inside : engine.machine.pc < engine.machine.programEnd)
    (trapped : engine.machine.transition = .error trap) :
    tick.run engine =
      ⟨{ engine with state := .halted .faulted },
        engine.opening ++ [.event (.fatalTrap engine.machine.pc trap)],
        .error (.raised ⟨engine.machine.pc, trap⟩)⟩ := by
  rw [tick_attempt running inside, Action.run_recover]
  rw [opening]
  cases fetched : engine.machine.fetched with
  | error cause =>
      rw [Machine.transition_of_not_fetched fetched] at trapped
      cases trapped
      simp [step_error fetched, stepFailed, halt, Action.run_bind]
  | ok inst =>
      rw [Machine.transition_of_fetched fetched] at trapped
      cases reached : Machine.effect inst engine.machine with
      | ok effect => simp [reached] at trapped
      | error cause =>
          simp only [reached, error_map, Except.error.injEq] at trapped
          subst trapped
          simp [step_fetched fetched, Machine.run_execute, reached, Machine.settled, stepFailed,
            halt, Action.run_bind]

theorem run_conclude {engine : Engine} {done : Retirement} {machine : Machine}
    (running : engine.state = .running)
    (retired : machine.retired done.inst done.inst.flow = .ok done.machine) :
    (conclude done.inst done.inst.flow).run { engine with machine := machine } =
      ⟨engine.retire done, engine.closing done, .ok done.state⟩ := by
  unfold retire closing Retirement.state
  rcases done.inst.flow_eq with flow | flow
  · rw [flow] at retired ⊢
    rw [conclude_next retired, running]
  · rw [flow] at retired ⊢
    rw [conclude_halt retired]

theorem step_retired {engine : Engine} {done : Retirement} (running : engine.state = .running)
    (inside : engine.machine.pc < engine.machine.programEnd)
    (retired : engine.machine.transition = .ok done) :
    step.run engine =
      ⟨engine.retire done,
        .event (.execute done.inst) :: done.printed.map .printed ++ engine.closing done,
        .ok done.state⟩ := by
  obtain ⟨fetched, effect, reached, moved, shown⟩ := Machine.transition_eq_ok retired
  have here := (Instruction.lookup_of_decode fetched).2
  have left := Machine.retired_of_fetched fetched inside effect.machine
  rw [here, ← moved] at left
  rw [step_fetched fetched, Machine.run_execute, reached, shown]
  simp only [Machine.settled, run_conclude running left]

theorem tick_retired {engine : Engine} {done : Retirement} (running : engine.state = .running)
    (inside : engine.machine.pc < engine.machine.programEnd)
    (retired : engine.machine.transition = .ok done) :
    tick.run engine =
      ⟨engine.retire done,
        engine.opening ++ done.printed.map .printed ++ engine.closing done,
        .ok done.state⟩ := by
  have fetched := (Machine.transition_eq_ok retired).1
  rw [tick_attempt running inside, Action.run_recover, step_retired running inside retired]
  simp [opening, fetched]

inductive Ticked (engine : Engine) : Outcome Emission Engine (Failure Fault) RunState → Prop
  | halted (reason : HaltReason) (stopped : engine.state = .halted reason) :
      Ticked engine ⟨engine, [], .ok (.halted reason)⟩
  | ended (running : engine.state = .running)
      (past : engine.machine.programEnd ≤ engine.machine.pc) :
      Ticked engine
        ⟨{ engine with state := .halted .endOfProgram },
          [.event (.endOfProgram engine.machine.pc)], .ok (.halted .endOfProgram)⟩
  | trapped (trap : Trap) (running : engine.state = .running)
      (inside : engine.machine.pc < engine.machine.programEnd)
      (failed : engine.machine.transition = .error trap) :
      Ticked engine
        ⟨{ engine with state := .halted .faulted },
          engine.opening ++ [.event (.fatalTrap engine.machine.pc trap)],
          .error (.raised ⟨engine.machine.pc, trap⟩)⟩
  | retired (done : Retirement) (running : engine.state = .running)
      (inside : engine.machine.pc < engine.machine.programEnd)
      (completed : engine.machine.transition = .ok done) :
      Ticked engine
        ⟨engine.retire done,
          engine.opening ++ done.printed.map .printed ++ engine.closing done,
          .ok done.state⟩

theorem ticked (engine : Engine) : Ticked engine (tick.run engine) := by
  cases running : engine.state with
  | halted reason =>
      rw [tick_halted running]
      exact .halted reason running
  | running =>
      by_cases inside : engine.machine.pc < engine.machine.programEnd
      · cases reached : engine.machine.transition with
        | error trap =>
            rw [tick_trapped running inside reached]
            exact .trapped trap running inside reached
        | ok done =>
            rw [tick_retired running inside reached]
            exact .retired done running inside reached
      · have past := Nat.not_lt.mp inside
        rw [tick_at_end running past]
        exact .ended running past

end Engine

end LS8
