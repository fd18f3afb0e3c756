import LS8.Proofs.Sessions

set_option autoImplicit false

namespace LS8

def withoutSnapshots (emitted : List Emission) : List Emission :=
  emitted.filter fun emission => emission.snapshot?.isNone

@[simp]
theorem withoutSnapshots_append (before after : List Emission) :
    withoutSnapshots (before ++ after) = withoutSnapshots before ++ withoutSnapshots after :=
  List.filter_append ..

def Engine.withTracing (on : Bool) (engine : Engine) : Engine :=
  { engine with tracing := on }

def Engine.untraced (engine : Engine) : Engine :=
  engine.withTracing false

def Turn.untraced (turn : Turn) : Turn where
  engine := turn.engine.untraced
  emitted := withoutSnapshots turn.emitted
  reply := turn.reply

namespace Engine

variable {ε α β : Type}

theorem untraced_eq_iff {left right : Engine} :
    left.untraced = right.untraced ↔
      left.machine = right.machine ∧ left.tally = right.tally ∧ left.state = right.state := by
  simp [untraced, withTracing]

theorem exists_of_untraced_eq {left right : Engine} (same : left.untraced = right.untraced) :
    ∃ on, right = left.withTracing on := by
  obtain ⟨machine, tally, state⟩ := untraced_eq_iff.mp same
  refine ⟨right.tracing, ?_⟩
  simp only [withTracing, machine, tally, state]

structure AlikeUntraced (left right : Outcome Emission Engine ε α) : Prop where
  engine : left.state.untraced = right.state.untraced
  emitted : withoutSnapshots left.emitted = withoutSnapshots right.emitted
  result : left.result = right.result

def Blind (action : EngineAction ε α) : Prop :=
  ∀ (engine : Engine) (on : Bool),
    AlikeUntraced (action.run engine) (action.run (engine.withTracing on))

theorem blind_bind {first : EngineAction ε α} {next : α → EngineAction ε β}
    (here : Blind first) (there : ∀ value, Blind (next value)) : Blind (first >>= next) := by
  intro engine on
  obtain ⟨same, emitted, result⟩ := here engine on
  rw [Action.run_bind, Action.run_bind, ← result]
  cases (first.run engine).result with
  | error cause => exact ⟨same, emitted, rfl⟩
  | ok value =>
      obtain ⟨on', right⟩ := exists_of_untraced_eq same
      simp only [right]
      obtain ⟨same', emitted', result'⟩ := there value (first.run engine).state on'
      refine ⟨same', ?_, result'⟩
      rw [withoutSnapshots_append, withoutSnapshots_append, emitted, emitted']

theorem blind_onMachine (action : Action UInt8 Machine ε α) : Blind (onMachine action) :=
  fun _ _ => ⟨rfl, rfl, rfl⟩

theorem blind_modify {change : Engine → Engine}
    (same : ∀ (engine : Engine) (on : Bool),
      (change engine).untraced = (change (engine.withTracing on)).untraced) :
    Blind (.modify change : EngineAction ε Unit) :=
  fun engine on => ⟨same engine on, rfl, rfl⟩

theorem blind_announce {report : Engine → Event}
    (same : ∀ (engine : Engine) (on : Bool), report engine = report (engine.withTracing on)) :
    Blind (do
      let engine ← .get
      .emit (.event (report engine)) : EngineAction ε Unit) := by
  intro engine on
  refine ⟨rfl, ?_, rfl⟩
  simp only [Action.run_bind, Action.run_get, Action.run_emit, same engine on]

theorem blind_loadMachine (image : List UInt8) : Blind (loadMachine image) := by
  apply blind_bind (blind_onMachine _)
  intro _
  exact blind_announce fun _ _ => rfl

theorem blind_restart : Blind restart :=
  blind_modify fun _ _ => rfl

theorem blind_resetMachine : Blind resetMachine := by
  apply blind_bind (blind_onMachine _)
  intro _
  exact blind_announce fun _ _ => rfl

theorem withoutSnapshots_opening (engine : Engine) (on : Bool) :
    withoutSnapshots engine.opening =
      withoutSnapshots (engine.withTracing on).opening := by
  simp only [opening, shown, withTracing, withoutSnapshots_append]
  cases engine.tracing <;> cases on <;> rfl

theorem blind_tick : Blind tick := by
  intro engine on
  have seen := ticked engine
  generalize tick.run engine = outcome at seen ⊢
  cases seen with
  | halted reason stopped =>
      rw [@tick_halted (engine.withTracing on) reason stopped]
      exact ⟨rfl, rfl, rfl⟩
  | ended running past =>
      rw [@tick_at_end (engine.withTracing on) running past]
      exact ⟨rfl, rfl, rfl⟩
  | trapped trap running inside failed =>
      rw [@tick_trapped (engine.withTracing on) trap running inside failed]
      refine ⟨rfl, ?_, rfl⟩
      rw [withoutSnapshots_append, withoutSnapshots_append, withoutSnapshots_opening engine on]
      rfl
  | retired done running inside completed =>
      rw [@tick_retired (engine.withTracing on) done running inside completed]
      refine ⟨rfl, ?_, rfl⟩
      simp only [withoutSnapshots_append, withoutSnapshots_opening engine on]
      rfl

theorem blind_run : Blind run := by
  have append {first first' second second' : List Emission}
      (here : withoutSnapshots first = withoutSnapshots first')
      (there : withoutSnapshots second = withoutSnapshots second') :
      withoutSnapshots (first ++ second) = withoutSnapshots (first' ++ second') := by
    rw [withoutSnapshots_append, withoutSnapshots_append, here, there]
  have step {left right : Engine} (same : left.untraced = right.untraced) :
      Parallel (fun left right => left.untraced = right.untraced)
        (fun emitted emitted' => withoutSnapshots emitted = withoutSnapshots emitted') id
        (tick.run left) (tick.run right) := by
    obtain ⟨on, rfl⟩ := exists_of_untraced_eq same
    obtain ⟨engine, emitted, result⟩ := blind_tick left on
    exact ⟨engine, emitted, by rw [mapError_id, result]⟩
  intro engine on
  have start : engine.untraced = (engine.withTracing on).untraced := rfl
  obtain ⟨reached, emitted, result⟩ := parallel_run append step start
  exact ⟨reached, emitted, by rw [result, mapError_id]⟩

end Engine

namespace Operation

variable {ε α : Type}

theorem untraced_answer {action : EngineAction ε α} (blind : Engine.Blind action)
    (succeeded : α → Reply) (failed : ε → Reply) (engine : Engine) (on : Bool) :
    (answer action succeeded failed engine).untraced =
      (answer action succeeded failed (engine.withTracing on)).untraced := by
  obtain ⟨same, emitted, result⟩ := blind engine on
  simp only [answer, ← result]
  cases (action.run engine).result <;> simp only [Turn.untraced, same, emitted]

theorem blind_recordGiven (given : Option Instruction) (depth : Nat) :
    Engine.Blind (recordGiven given depth) := by
  apply Engine.blind_bind (Engine.blind_onMachine _)
  intro inst
  exact Engine.blind_modify fun _ _ => rfl

theorem untraced_perform (operation : Operation) (engine : Engine) (on : Bool) :
    (operation.perform engine).untraced =
      (operation.perform (engine.withTracing on)).untraced := by
  cases operation with
  | load image =>
      apply untraced_answer
      exact Engine.blind_bind (Engine.blind_loadMachine image) fun _ => Engine.blind_restart
  | loadMachine image => exact untraced_answer (Engine.blind_loadMachine image) ..
  | tick => exact untraced_answer Engine.blind_tick ..
  | run => exact untraced_answer Engine.blind_run ..
  | reset =>
      apply untraced_answer
      exact Engine.blind_bind Engine.blind_resetMachine fun _ => Engine.blind_restart
  | resetMachine => exact untraced_answer Engine.blind_resetMachine ..
  | setTracing on' => exact untraced_answer (Engine.blind_modify fun _ _ => rfl) ..
  | record given depth => exact untraced_answer (blind_recordGiven given depth) ..
  | capture => exact untraced_answer (fun _ _ => ⟨rfl, rfl, rfl⟩) ..
  | _ => exact untraced_answer (Engine.blind_onMachine _) ..

end Operation

theorem untraced_turns (operations : List Operation) {left right : Engine}
    (same : left.untraced = right.untraced) :
    (turns operations left).map Turn.untraced = (turns operations right).map Turn.untraced := by
  induction operations generalizing left right with
  | nil => rfl
  | cons operation rest ih =>
      obtain ⟨on, rfl⟩ := Engine.exists_of_untraced_eq same
      have turn := operation.untraced_perform left on
      have later := ih (congrArg Turn.engine turn)
      rw [turns, turns, List.map_cons, List.map_cons, turn, later]

def Operation.switchesTracing : Operation → Bool
  | .setTracing _ => true
  | _ => false

def withoutSwitches (operations : List Operation) : List Operation :=
  operations.filter fun operation => !operation.switchesTracing

def untracedTurns : List Operation → Engine → List Turn
  | [], _ => []
  | operation :: rest, engine =>
      let turn := operation.perform engine
      if operation.switchesTracing then
        untracedTurns rest turn.engine
      else
        turn.untraced :: untracedTurns rest turn.engine

theorem Operation.perform_of_switchesTracing {operation : Operation}
    (switches : operation.switchesTracing = true) (engine : Engine) :
    ∃ on, operation.perform engine = ⟨engine.withTracing on, [], .done⟩ := by
  cases operation with
  | setTracing on => exact ⟨on, rfl⟩
  | _ => cases switches

theorem untracedTurns_eq (operations : List Operation) {engine other : Engine}
    (same : engine.untraced = other.untraced) :
    untracedTurns operations engine =
      (turns (withoutSwitches operations) other).map Turn.untraced := by
  induction operations generalizing engine other with
  | nil => rfl
  | cons operation rest ih =>
      cases switches : operation.switchesTracing with
      | true =>
          obtain ⟨on, switched⟩ := operation.perform_of_switchesTracing switches engine
          have later := ih (show (engine.withTracing on).untraced = other.untraced from same)
          simpa [untracedTurns, withoutSwitches, switches, switched] using later
      | false =>
          obtain ⟨on, rfl⟩ := Engine.exists_of_untraced_eq same
          have turn := operation.untraced_perform engine on
          have later := ih (congrArg Turn.engine turn)
          simpa [untracedTurns, withoutSwitches, turns, switches, turn] using later

theorem untraced_after (operations : List Operation) {engine other : Engine}
    (same : engine.untraced = other.untraced) :
    (engine.after operations).untraced =
      (other.after (withoutSwitches operations)).untraced := by
  induction operations generalizing engine other with
  | nil => exact same
  | cons operation rest ih =>
      cases switches : operation.switchesTracing with
      | true =>
          obtain ⟨on, switched⟩ := operation.perform_of_switchesTracing switches engine
          have later := ih (show (engine.withTracing on).untraced = other.untraced from same)
          simpa [Engine.after, withoutSwitches, switches, switched] using later
      | false =>
          obtain ⟨on, rfl⟩ := Engine.exists_of_untraced_eq same
          have turn := operation.untraced_perform engine on
          have later := ih (congrArg Turn.engine turn)
          simpa [Engine.after, withoutSwitches, switches] using later

@[simp]
theorem printedValues_withoutSnapshots (emitted : List Emission) :
    printedValues (withoutSnapshots emitted) = printedValues emitted := by
  induction emitted with
  | nil => rfl
  | cons emission rest ih =>
      cases emission with
      | printed value => exact congrArg (value :: ·) ih
      | snapshot taken => exact ih
      | event logged => exact ih

def emissions (operations : List Operation) (engine : Engine) : List Emission :=
  (turns operations engine).flatMap Turn.emitted

theorem printedValues_emissions (operations : List Operation) (engine : Engine) :
    printedValues (emissions operations engine) =
      printedValues ((untracedTurns operations engine).flatMap Turn.emitted) := by
  induction operations generalizing engine with
  | nil => rfl
  | cons operation rest ih =>
      have later := ih (operation.perform engine).engine
      simp only [emissions] at later
      simp only [emissions, turns, untracedTurns, List.flatMap_cons, Engine.printedValues_append,
        later]
      cases switches : operation.switchesTracing with
      | true =>
          obtain ⟨on, switched⟩ := operation.perform_of_switchesTracing switches engine
          have quiet : printedValues (operation.perform engine).emitted = [] := by
            rw [switched]
            rfl
          simp [quiet]
      | false => simp [Turn.untraced]

theorem tracing_never_interferes (left right : Engine) (operations operations' : List Operation)
    (received received' : List Emission) (same : left.untraced = right.untraced)
    (alike : withoutSnapshots received = withoutSnapshots received')
    (besides : withoutSwitches operations = withoutSwitches operations') :
    untracedTurns operations left = untracedTurns operations' right ∧
    (left.after operations).machine = (right.after operations').machine ∧
    (left.after operations).tally = (right.after operations').tally ∧
    (left.after operations).state = (right.after operations').state ∧
    printedValues (received ++ emissions operations left) =
      printedValues (received' ++ emissions operations' right) := by
  have turns : untracedTurns operations left = untracedTurns operations' right := by
    rw [untracedTurns_eq operations same, untracedTurns_eq operations' (Eq.refl right.untraced),
      besides]
  have reached : (left.after operations).untraced = (right.after operations').untraced := by
    rw [untraced_after operations same, untraced_after operations' (Eq.refl right.untraced),
      besides]
  have printed : printedValues received = printedValues received' := by
    rw [← printedValues_withoutSnapshots, alike, printedValues_withoutSnapshots]
  obtain ⟨machine, tally, state⟩ := Engine.untraced_eq_iff.mp reached
  refine ⟨turns, machine, tally, state, ?_⟩
  rw [Engine.printedValues_append, Engine.printedValues_append, printed, printedValues_emissions,
    printedValues_emissions, turns]

-- The one session is never traced, and the other one up to the instruction that faults.
theorem tracing_never_interferes_with_fault :
    let left := Engine.ofSettings {}
    let right := Engine.ofSettings { traceInstructions := true }
    let operations : List Operation := [.load [0x82, 0, 5, 0x47, 0, 0x46, 1], .tick, .run, .pop]
    let operations' : List Operation :=
      [.load [0x82, 0, 5, 0x47, 0, 0x46, 1], .tick, .setTracing false, .setTracing true, .run,
        .setTracing false, .pop]
    let received' := [Emission.snapshot (.ofMachine left.machine)]
    left.untraced = right.untraced ∧
    withoutSnapshots [] = withoutSnapshots received' ∧
    withoutSwitches operations = withoutSwitches operations' ∧
    (snapshots (emissions operations left)).length = 0 ∧
    (snapshots (emissions operations' right)).length = 3 ∧
    untracedTurns operations left = untracedTurns operations' right ∧
    (left.after operations).state = .halted .faulted ∧
    (right.after operations').state = .halted .faulted ∧
    printedValues ([] ++ emissions operations left) = [5] ∧
    printedValues (received' ++ emissions operations' right) = [5] := by
  intro left right operations operations' received'
  have same : left.untraced = right.untraced := rfl
  have alike : withoutSnapshots [] = withoutSnapshots received' := rfl
  have besides : withoutSwitches operations = withoutSwitches operations' := by decide
  have faulted : (left.after operations).state = .halted .faulted := by decide +kernel
  have printed : printedValues ([] ++ emissions operations left) = [5] := by decide +kernel
  obtain ⟨turns, -, -, state, printed'⟩ :=
    tracing_never_interferes left right operations operations' [] received' same alike besides
  exact ⟨same, alike, besides, by decide +kernel, by decide +kernel, turns, faulted,
    state.symm.trans faulted, printed, printed'.symm.trans printed⟩

end LS8
