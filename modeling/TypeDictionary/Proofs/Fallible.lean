import Mathlib.Data.List.Forall2
import TypeDictionary.Loader.Session

/-!
# Computations that may fail

A sequence of steps that may fail is taken apart from its result: it succeeds exactly when every
step does, and fails with the error of the first that does not. Actions also have a session, and
most of them leave all of it alone but the trace. `Action.OnlyTraces` says so of an action whether
or not it fails. It is closed under sequencing, so it holds of all actions that are composed of
questions, events and results; `Action.Composed` says how, and is proved of a program step by step.
-/

namespace TypeDictionary

namespace Fallible

variable {ε α β : Type}

theorem ok_bind (value : α) (next : α → Except ε β) : (Except.ok value >>= next) = next value := rfl

theorem error_bind (error : ε) (next : α → Except ε β) :
    (Except.error error >>= next) = .error error := rfl

theorem map_bind (result : Except ε α) {γ : Type} (f : α → β) (next : β → Except ε γ) :
    (result.map f >>= next) = result >>= fun value => next (f value) := by
  cases result <;> rfl

theorem bind_eq_ok_iff {first : Except ε α} {next : α → Except ε β} {result : β} :
    first >>= next = .ok result ↔ ∃ value, first = .ok value ∧ next value = .ok result := by
  cases first with
  | error error =>
      constructor
      · intro h
        cases h
      · rintro ⟨value, h, _⟩
        cases h
  | ok value =>
      constructor
      · intro h
        exact ⟨value, rfl, h⟩
      · rintro ⟨other, same, h⟩
        cases same
        exact h

theorem bind_eq_error_iff {first : Except ε α} {next : α → Except ε β} {error : ε} :
    first >>= next = .error error ↔
      first = .error error ∨ ∃ value, first = .ok value ∧ next value = .error error := by
  cases first with
  | error other =>
      constructor
      · intro h
        cases h
        exact .inl rfl
      · rintro (h | ⟨value, h, _⟩)
        · cases h
          rfl
        · cases h
  | ok value =>
      constructor
      · intro h
        exact .inr ⟨value, rfl, h⟩
      · rintro (h | ⟨other, same, h⟩)
        · cases h
        · cases same
          exact h

theorem map_eq_ok_iff {result : Except ε α} {f : α → β} {value : β} :
    result.map f = .ok value ↔ ∃ made, result = .ok made ∧ f made = value := by
  cases result with
  | error error => simp [Except.map]
  | ok made => simp [Except.map]

theorem map_eq_error_iff {result : Except ε α} {f : α → β} {error : ε} :
    result.map f = .error error ↔ result = .error error := by
  cases result with
  | error other => simp [Except.map]
  | ok made => simp [Except.map]

/-- If results come out as values, they are the values made of the items one by one. -/
theorem map_eq_map_ok_iff {γ : Type} {make : α → Except ε β} {wrap : β → γ} {items : List α}
    {results : List γ} :
    items.map (fun item => (make item).map wrap) = results.map .ok ↔
      ∃ values, results = values.map wrap ∧
        List.Forall₂ (fun item value => make item = .ok value) items values := by
  constructor
  · intro h
    induction items generalizing results with
    | nil =>
        cases results with
        | nil => exact ⟨[], rfl, .nil⟩
        | cons _ _ => cases h
    | cons item rest ih =>
        cases results with
        | nil => cases h
        | cons result results =>
            obtain ⟨first, others⟩ := List.cons.inj h
            obtain ⟨value, made, rfl⟩ := map_eq_ok_iff.mp first
            obtain ⟨values, rfl, matching⟩ := ih others
            exact ⟨value :: values, rfl, .cons made matching⟩
  · rintro ⟨values, rfl, matching⟩
    induction matching with
    | nil => rfl
    | cons made _ ih => rw [List.map_cons, made, ih, List.map_cons, List.map_cons]; rfl

/-- What does not fail succeeds. -/
theorem exists_ok_iff {result : Except ε α} :
    (∃ value, result = .ok value) ↔ ∀ error, result ≠ .error error := by
  cases result with
  | error error => simp
  | ok value => simp

/-- Results that are the same error, or both values, which are related. -/
inductive Alike (related : α → β → Prop) : Except ε α → Except ε β → Prop
  | ok {value : α} {other : β} (h : related value other) : Alike related (.ok value) (.ok other)
  | error (error : ε) : Alike related (.error error) (.error error)

namespace Alike

variable {related : α → β → Prop} {result : Except ε α} {other : Except ε β}

theorem exists_ok_iff (h : Alike related result other) :
    (∃ value, result = .ok value) ↔ ∃ value, other = .ok value := by
  cases h <;> simp

theorem eq_error_iff (h : Alike related result other) {error : ε} :
    result = .error error ↔ other = .error error := by
  cases h <;> simp

theorem related_of_ok (h : Alike related result other) {value : α} {otherValue : β}
    (hresult : result = .ok value) (hother : other = .ok otherValue) :
    related value otherValue := by
  subst hresult hother
  cases h with
  | ok h => exact h

end Alike

end Fallible

namespace Action

variable {ε α β : Type}

@[simp] theorem run_get (session : Session) :
    (get : Action Session).run session = (.ok session, session) := rfl

@[simp] theorem run_set (session before : Session) :
    (set session : Action Unit).run before = (.ok (), session) := rfl

/-- A sequence of actions runs the second on what the first made of the session, unless the first
fails. -/
theorem run_bind (first : Action α) (next : α → Action β) (session : Session) :
    (first >>= next).run session =
      match first.run session with
      | (.ok value, middle) => (next value).run middle
      | (.error error, middle) => (.error error, middle) := by
  simp only [ExceptT.run, bind, ExceptT.bind, ExceptT.mk, StateT.bind, ExceptT.bindCont]
  rcases first session with ⟨result, middle⟩
  cases result <;> rfl

@[simp] theorem run_ask (stage : Stage) (node : NodeId) (call : Call)
    (answer : List Call → Except String α) (session : Session) :
    (ask stage node call answer).run session =
      ((answer session.trace.calls).mapError (.refused stage node), session.called call) := by
  simp only [ask, run_bind, run_get, run_set]
  cases answer session.trace.calls <;> rfl

@[simp] theorem run_lift (wrap : ε → LoadError) (result : Except ε α) (session : Session) :
    (lift wrap result).run session = (result.mapError wrap, session) := by
  cases result <;> rfl

section Sequence

variable {next : α → Action β} {session after : Session} {result : β}

@[simp] theorem run_tell_bind (events : List Event) (next : Unit → Action β) (session : Session) :
    (tell events >>= next).run session = (next ()).run (session.tell events) := rfl

@[simp] theorem run_enter_bind (node : NodeId) (stage : Stage) (next : Unit → Action β)
    (session : Session) :
    (enter node stage >>= next).run session =
      (next ()).run (session.tell [.stageEntered node stage]) := rfl

@[simp] theorem run_get_bind (next : Session → Action β) (session : Session) :
    (get >>= next).run session = (next session).run session := rfl

/-- After a question the actions go on only with an answer, in the session that has asked it. -/
theorem run_ask_bind_eq_ok_iff {stage : Stage} {node : NodeId} {call : Call}
    {answer : List Call → Except String α} :
    (ask stage node call answer >>= next).run session = (.ok result, after) ↔
      ∃ value, answer session.trace.calls = .ok value ∧
        (next value).run (session.called call) = (.ok result, after) := by
  rw [run_bind, run_ask]
  cases answer session.trace.calls with
  | error reason =>
      constructor
      · rintro ⟨⟩
      · rintro ⟨value, ⟨⟩, _⟩
  | ok value =>
      constructor
      · intro h
        exact ⟨value, rfl, h⟩
      · rintro ⟨_, ⟨⟩, h⟩
        exact h

theorem run_lift_bind_eq_ok_iff {wrap : ε → LoadError} {made : Except ε α} :
    (lift wrap made >>= next).run session = (.ok result, after) ↔
      ∃ value, made = .ok value ∧ (next value).run session = (.ok result, after) := by
  rw [run_bind, run_lift]
  cases made with
  | error error =>
      constructor
      · rintro ⟨⟩
      · rintro ⟨value, ⟨⟩, _⟩
  | ok value =>
      constructor
      · intro h
        exact ⟨value, rfl, h⟩
      · rintro ⟨_, ⟨⟩, h⟩
        exact h

theorem run_bind_eq_ok {first : Action α} (h : (first >>= next).run session = (.ok result, after)) :
    ∃ value middle, first.run session = (.ok value, middle) ∧
      (next value).run middle = (.ok result, after) := by
  rw [run_bind] at h
  rcases hfirst : first.run session with ⟨outcome, middle⟩
  rw [hfirst] at h
  cases outcome with
  | error error => cases h
  | ok value => exact ⟨value, middle, rfl, h⟩

end Sequence

/-- An action that does not fail in a session. -/
def Succeeds (action : Action α) (session : Session) : Prop :=
  ∃ value after, action.run session = (.ok value, after)

section Succeeds

variable {next : α → Action β} {session : Session}

theorem succeeds_pure (value : α) : Succeeds (Pure.pure value : Action α) session :=
  ⟨value, session, rfl⟩

theorem succeeds_tell_bind {events : List Event} {next : Unit → Action β} :
    Succeeds (tell events >>= next) session ↔ Succeeds (next ()) (session.tell events) := Iff.rfl

theorem succeeds_enter_bind {node : NodeId} {stage : Stage} {next : Unit → Action β} :
    Succeeds (enter node stage >>= next) session ↔
      Succeeds (next ()) (session.tell [.stageEntered node stage]) := Iff.rfl

theorem succeeds_get_bind {next : Session → Action β} :
    Succeeds (get >>= next) session ↔ Succeeds (next session) session := Iff.rfl

theorem succeeds_ask_bind {stage : Stage} {node : NodeId} {call : Call}
    {answer : List Call → Except String α} :
    Succeeds (ask stage node call answer >>= next) session ↔
      ∃ value, answer session.trace.calls = .ok value ∧
        Succeeds (next value) (session.called call) := by
  unfold Succeeds
  simp only [run_ask_bind_eq_ok_iff]
  constructor
  · rintro ⟨result, after, value, answered, h⟩
    exact ⟨value, answered, result, after, h⟩
  · rintro ⟨value, answered, result, after, h⟩
    exact ⟨result, after, value, answered, h⟩

theorem succeeds_lift_bind {wrap : ε → LoadError} {made : Except ε α} :
    Succeeds (lift wrap made >>= next) session ↔
      ∃ value, made = .ok value ∧ Succeeds (next value) session := by
  unfold Succeeds
  simp only [run_lift_bind_eq_ok_iff]
  constructor
  · rintro ⟨result, after, value, hmade, h⟩
    exact ⟨value, hmade, result, after, h⟩
  · rintro ⟨value, hmade, result, after, h⟩
    exact ⟨result, after, value, hmade, h⟩

/-- What comes after an action cannot make it fail if it never fails itself. -/
theorem succeeds_bind_iff {first : Action α}
    (hnext : ∀ value session, Succeeds (next value) session) :
    Succeeds (first >>= next) session ↔ Succeeds first session := by
  constructor
  · rintro ⟨result, after, h⟩
    obtain ⟨value, middle, hfirst, _⟩ := run_bind_eq_ok h
    exact ⟨value, middle, hfirst⟩
  · rintro ⟨value, middle, hfirst⟩
    obtain ⟨result, after, h⟩ := hnext value middle
    refine ⟨result, after, ?_⟩
    rw [run_bind, hfirst]
    exact h

end Succeeds

/-- An action that changes nothing of a session but its trace, whether or not it fails. -/
def OnlyTraces (action : Action α) : Prop :=
  ∀ session, ∃ trace : Trace, (action.run session).2 = { session with trace }

namespace OnlyTraces

theorem pure (value : α) : OnlyTraces (Pure.pure value : Action α) :=
  fun session => ⟨session.trace, rfl⟩

theorem get : OnlyTraces (MonadState.get : Action Session) := fun session => ⟨session.trace, rfl⟩

theorem tell (events : List Event) : OnlyTraces (Action.tell events) := fun _ => ⟨_, rfl⟩

theorem ask (stage : Stage) (node : NodeId) (call : Call)
    (answer : List Call → Except String α) : OnlyTraces (Action.ask stage node call answer) := by
  intro session
  rw [run_ask]
  exact ⟨_, rfl⟩

theorem lift (wrap : ε → LoadError) (result : Except ε α) :
    OnlyTraces (Action.lift wrap result) := by
  intro session
  rw [run_lift]
  exact ⟨session.trace, rfl⟩

/-- The trace of a sequence is that of its last action, so only the first failure matters. -/
theorem bind {first : Action α} {next : α → Action β} (hfirst : OnlyTraces first)
    (hnext : ∀ value, OnlyTraces (next value)) : OnlyTraces (first >>= next) := by
  intro session
  obtain ⟨trace, h⟩ := hfirst session
  rw [run_bind]
  rcases hrun : first.run session with ⟨outcome, middle⟩
  rw [hrun] at h
  change middle = _ at h
  subst h
  cases outcome with
  | error error => exact ⟨trace, rfl⟩
  | ok value =>
      obtain ⟨later, hlater⟩ := hnext value { session with trace }
      exact ⟨later, hlater⟩

/-- What an action that only traces leaves of a session: the registry and the count of the
dictionaries taken in. -/
theorem kept {action : Action α} (h : OnlyTraces action) {session after : Session}
    {result : Except LoadError α} (run : action.run session = (result, after)) :
    after.registry = session.registry ∧ after.loaded = session.loaded := by
  obtain ⟨trace, same⟩ := h session
  rw [run] at same
  change after = _ at same
  subst same
  exact ⟨rfl, rfl⟩

end OnlyTraces

/-- Actions that are composed of questions, events and results. Of a session they look at nothing
but the registry. -/
inductive Composed : {α : Type} → Action α → Prop
  | pure {α : Type} (value : α) : Composed (Pure.pure value : Action α)
  | tell (events : List Event) : Composed (Action.tell events)
  | lift {ε α : Type} (wrap : ε → LoadError) (result : Except ε α) :
      Composed (Action.lift wrap result)
  | ask {α : Type} (stage : Stage) (node : NodeId) (call : Call)
      (answer : List Call → Except String α) : Composed (Action.ask stage node call answer)
  | bind {α β : Type} {first : Action α} {next : α → Action β} (begins : Composed first)
      (goesOn : ∀ value, Composed (next value)) : Composed (first >>= next)
  | look {β : Type} {next : Session → Action β}
      (same : ∀ session other : Session, session.registry = other.registry →
        next session = next other)
      (goesOn : ∀ session, Composed (next session)) : Composed (MonadState.get >>= next)

namespace Composed

theorem enter (node : NodeId) (stage : Stage) : Composed (Action.enter node stage) := tell _

theorem onlyTraces {action : Action α} (h : Composed action) : OnlyTraces action := by
  induction h with
  | pure value => exact .pure value
  | tell events => exact .tell events
  | lift wrap result => exact .lift wrap result
  | ask stage node call answer => exact .ask stage node call answer
  | bind _ _ begins goesOn => exact begins.bind goesOn
  | look _ _ goesOn => exact OnlyTraces.get.bind goesOn

end Composed

end Action

end TypeDictionary
