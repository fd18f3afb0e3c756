import LS8.Trap

set_option autoImplicit false

namespace LS8

structure Outcome (ω σ ε α : Type) where
  state : σ
  emitted : List ω
  result : Except ε α

def Action (ω σ ε α : Type) : Type :=
  σ → Outcome ω σ ε α

namespace Action

variable {ω ω' σ τ ε ε' α β : Type}

def run (action : Action ω σ ε α) (state : σ) : Outcome ω σ ε α :=
  action state

@[ext]
theorem ext {left right : Action ω σ ε α} (same : ∀ state, left.run state = right.run state) :
    left = right :=
  funext same

protected def pure (value : α) : Action ω σ ε α := fun state =>
  ⟨state, [], .ok value⟩

protected def bind (first : Action ω σ ε α) (next : α → Action ω σ ε β) : Action ω σ ε β :=
  fun state =>
    let before := first.run state
    match before.result with
    | .error cause => ⟨before.state, before.emitted, .error cause⟩
    | .ok value =>
        let after := (next value).run before.state
        ⟨after.state, before.emitted ++ after.emitted, after.result⟩

instance : Monad (Action ω σ ε) where
  pure := Action.pure
  bind := Action.bind

@[simp]
theorem run_pure (value : α) (state : σ) :
    (pure value : Action ω σ ε α).run state = ⟨state, [], .ok value⟩ := rfl

theorem run_bind (first : Action ω σ ε α) (next : α → Action ω σ ε β) (state : σ) :
    (first >>= next).run state =
      match (first.run state).result with
      | .error cause => ⟨(first.run state).state, (first.run state).emitted, .error cause⟩
      | .ok value =>
          ⟨((next value).run (first.run state).state).state,
            (first.run state).emitted ++ ((next value).run (first.run state).state).emitted,
            ((next value).run (first.run state).state).result⟩ := rfl

theorem run_bind_ok {first : Action ω σ ε α} (next : α → Action ω σ ε β) {state middle : σ}
    {emitted : List ω} {value : α} (done : first.run state = ⟨middle, emitted, .ok value⟩) :
    (first >>= next).run state =
      ⟨((next value).run middle).state, emitted ++ ((next value).run middle).emitted,
        ((next value).run middle).result⟩ := by
  simp [run_bind, done]

theorem run_bind_congr {first first' : Action ω σ ε α} {next next' : α → Action ω σ ε β}
    {state : σ} (same : first.run state = first'.run state)
    (continues : ∀ value, (first'.run state).result = .ok value →
      (next value).run (first'.run state).state = (next' value).run (first'.run state).state) :
    (first >>= next).run state = (first' >>= next').run state := by
  rw [run_bind, run_bind, same]
  cases reached : (first'.run state).result with
  | error cause => rfl
  | ok value => simp only [continues value reached]

theorem ok_of_bind_ok {first : Action ω σ ε α} {next : α → Action ω σ ε β} {state : σ}
    {result : β} (done : ((first >>= next).run state).result = .ok result) :
    ∃ value,
      (first.run state).result = .ok value ∧
        ((next value).run (first.run state).state).result = .ok result ∧
        ((first >>= next).run state).state =
          ((next value).run (first.run state).state).state := by
  rw [run_bind] at done ⊢
  cases reached : (first.run state).result with
  | error cause => simp [reached] at done
  | ok value =>
      rw [reached] at done
      exact ⟨value, rfl, done, rfl⟩

def get : Action ω σ ε σ := fun state =>
  ⟨state, [], .ok state⟩

def modify (change : σ → σ) : Action ω σ ε Unit := fun state =>
  ⟨change state, [], .ok ()⟩

def fail (cause : ε) : Action ω σ ε α := fun state =>
  ⟨state, [], .error cause⟩

def emit (output : ω) : Action ω σ ε Unit := fun state =>
  ⟨state, [output], .ok ()⟩

def inspect (look : σ → Except ε α) : Action ω σ ε α := fun state =>
  ⟨state, [], look state⟩

def update (change : σ → Except ε σ) : Action ω σ ε Unit := fun state =>
  match change state with
  | .ok changed => ⟨changed, [], .ok ()⟩
  | .error cause => ⟨state, [], .error cause⟩

@[simp]
theorem run_get (state : σ) : (get : Action ω σ ε σ).run state = ⟨state, [], .ok state⟩ := rfl

@[simp]
theorem run_modify (change : σ → σ) (state : σ) :
    (modify change : Action ω σ ε Unit).run state = ⟨change state, [], .ok ()⟩ := rfl

@[simp]
theorem run_fail (cause : ε) (state : σ) :
    (fail cause : Action ω σ ε α).run state = ⟨state, [], .error cause⟩ := rfl

@[simp]
theorem run_emit (output : ω) (state : σ) :
    (emit output : Action ω σ ε Unit).run state = ⟨state, [output], .ok ()⟩ := rfl

@[simp]
theorem run_inspect (look : σ → Except ε α) (state : σ) :
    (inspect look : Action ω σ ε α).run state = ⟨state, [], look state⟩ := rfl

theorem run_update_ok {change : σ → Except ε σ} {state changed : σ}
    (done : change state = .ok changed) :
    (update change : Action ω σ ε Unit).run state = ⟨changed, [], .ok ()⟩ := by
  simp [run, update, done]

theorem run_update_error {change : σ → Except ε σ} {state : σ} {cause : ε}
    (failed : change state = .error cause) :
    (update change : Action ω σ ε Unit).run state = ⟨state, [], .error cause⟩ := by
  simp [run, update, failed]

theorem run_update_congr {change change' : σ → Except ε σ} {state : σ}
    (same : change state = change' state) :
    (update change : Action ω σ ε Unit).run state = (update change').run state := by
  simp only [run, update, same]

@[simp]
theorem ok_mapError (rename : ε → ε') (value : α) :
    (Except.ok value).mapError rename = .ok value := rfl

@[simp]
theorem error_mapError (rename : ε → ε') (cause : ε) :
    (Except.error cause : Except ε α).mapError rename = .error (rename cause) := rfl

def mapError (rename : ε → ε') (action : Action ω σ ε α) : Action ω σ ε' α := fun state =>
  let done := action.run state
  ⟨done.state, done.emitted, done.result.mapError rename⟩

@[simp]
theorem run_mapError (rename : ε → ε') (action : Action ω σ ε α) (state : σ) :
    (action.mapError rename).run state =
      ⟨(action.run state).state, (action.run state).emitted,
        (action.run state).result.mapError rename⟩ := rfl

instance : MonadLift (Action ω σ ε) (Action ω σ (Failure ε)) where
  monadLift action := action.mapError Failure.raised

@[simp]
theorem run_liftM (action : Action ω σ ε α) (state : σ) :
    (liftM action : Action ω σ (Failure ε) α).run state =
      (action.mapError Failure.raised).run state := rfl

/-- Continues after a failure. What was emitted before it stays emitted. -/
def recover (action : Action ω σ ε α) (handle : ε → Action ω σ ε' α) : Action ω σ ε' α :=
  fun state =>
    let before := action.run state
    match before.result with
    | .ok value => ⟨before.state, before.emitted, .ok value⟩
    | .error cause =>
        let after := (handle cause).run before.state
        ⟨after.state, before.emitted ++ after.emitted, after.result⟩

theorem run_recover (action : Action ω σ ε α) (handle : ε → Action ω σ ε' α) (state : σ) :
    (action.recover handle).run state =
      match (action.run state).result with
      | .ok value => ⟨(action.run state).state, (action.run state).emitted, .ok value⟩
      | .error cause =>
          ⟨((handle cause).run (action.run state).state).state,
            (action.run state).emitted ++
              ((handle cause).run (action.run state).state).emitted,
            ((handle cause).run (action.run state).state).result⟩ := rfl

def within (part : σ → τ) (replace : σ → τ → σ) (wrap : ω → ω') (action : Action ω τ ε α) :
    Action ω' σ ε α := fun state =>
  let done := action.run (part state)
  ⟨replace state done.state, done.emitted.map wrap, done.result⟩

@[simp]
theorem run_within (part : σ → τ) (replace : σ → τ → σ) (wrap : ω → ω')
    (action : Action ω τ ε α) (state : σ) :
    (action.within part replace wrap).run state =
      ⟨replace state (action.run (part state)).state,
        (action.run (part state)).emitted.map wrap,
        (action.run (part state)).result⟩ := rfl

def Keeps (view : σ → τ) (action : Action ω σ ε α) : Prop :=
  ∀ state, view (action.run state).state = view state

theorem keeps_pure (view : σ → τ) (value : α) :
    (pure value : Action ω σ ε α).Keeps view := fun _ => rfl

theorem keeps_get (view : σ → τ) : (get : Action ω σ ε σ).Keeps view := fun _ => rfl

theorem keeps_fail (view : σ → τ) (cause : ε) :
    (fail cause : Action ω σ ε α).Keeps view := fun _ => rfl

theorem keeps_emit (view : σ → τ) (output : ω) :
    (emit output : Action ω σ ε Unit).Keeps view := fun _ => rfl

theorem keeps_inspect (view : σ → τ) (look : σ → Except ε α) :
    (inspect look : Action ω σ ε α).Keeps view := fun _ => rfl

theorem keeps_modify {view : σ → τ} {change : σ → σ}
    (same : ∀ state, view (change state) = view state) :
    (modify change : Action ω σ ε Unit).Keeps view := same

theorem keeps_update {view : σ → τ} {change : σ → Except ε σ}
    (same : ∀ state changed, change state = .ok changed → view changed = view state) :
    (update change : Action ω σ ε Unit).Keeps view := by
  intro state
  cases done : change state with
  | ok changed => simp [run_update_ok done, same state changed done]
  | error cause => simp [run_update_error done]

theorem keeps_bind {view : σ → τ} {first : Action ω σ ε α} {next : α → Action ω σ ε β}
    (here : first.Keeps view) (there : ∀ value, (next value).Keeps view) :
    (first >>= next).Keeps view := by
  intro state
  rw [run_bind]
  split
  · exact here state
  · next value _ => exact (there value _).trans (here state)

def Yields (property : α → Prop) (action : Action ω σ ε α) : Prop :=
  ∀ state value, (action.run state).result = .ok value → property value

theorem yields_pure {property : α → Prop} {value : α} (holds : property value) :
    (pure value : Action ω σ ε α).Yields property := by
  intro state result done
  cases done
  exact holds

theorem yields_fail (property : α → Prop) (cause : ε) :
    (fail cause : Action ω σ ε α).Yields property := by
  intro state result done
  cases done

theorem yields_bind {property : β → Prop} {first : Action ω σ ε α}
    {next : α → Action ω σ ε β} (each : ∀ value, (next value).Yields property) :
    (first >>= next).Yields property := by
  intro state result done
  rw [run_bind] at done
  split at done
  · cases done
  · next value _ => exact each value _ _ done

end Action

end LS8
