import TypeDictionary.Proofs.Attempts
import TypeDictionary.Proofs.Inquiries

/-!
# Events are never read

What a session tells of is for people: no action looks at it again. Two sessions that match, having
the same registry and having asked the same, may have told of different things. Whatever is done to
both comes to the same result in both, and they still match behind it. `Action.IgnoresEvents` says
so of an action, whether or not it fails, and holds of all that are composed of questions, events
and results. The server need not give the same answers at all times, since both sessions have asked
the same before.
-/

namespace TypeDictionary

theorem Session.tell_tell (session : Session) (events later : List Event) :
    (session.tell events).tell later = session.tell (events ++ later) := by
  simp only [tell, List.append_assoc]

/-- Sessions that differ in nothing but what they have told of. -/
structure Session.Matches (session other : Session) : Prop where
  registry : session.registry = other.registry
  loaded : session.loaded = other.loaded
  calls : session.trace.calls = other.trace.calls

namespace Session.Matches

variable {session other : Session}

theorem symm (h : session.Matches other) : other.Matches session :=
  ⟨h.registry.symm, h.loaded.symm, h.calls.symm⟩

theorem tell_right (h : session.Matches other) (events : List Event) :
    session.Matches (other.tell events) := ⟨h.registry, h.loaded, h.calls⟩

theorem tell (h : session.Matches other) (events others : List Event) :
    (session.tell events).Matches (other.tell others) :=
  (h.symm.tell_right events).symm.tell_right others

theorem called (h : session.Matches other) (call : Call) :
    (session.called call).Matches (other.called call) where
  registry := h.registry
  loaded := h.loaded
  calls := congrArg (· ++ [call]) h.calls

end Session.Matches

namespace Action

variable {ε α β : Type}

/-- An action that comes to the same in sessions that match. -/
def IgnoresEvents (action : Action α) : Prop :=
  ∀ session other, session.Matches other →
    (action.run session).1 = (action.run other).1 ∧
      (action.run session).2.Matches (action.run other).2

namespace IgnoresEvents

theorem pure (value : α) : IgnoresEvents (Pure.pure value : Action α) :=
  fun _ _ h => ⟨rfl, h⟩

theorem tell (events : List Event) : IgnoresEvents (Action.tell events) :=
  fun _ _ h => ⟨rfl, h.tell events events⟩

theorem lift (wrap : ε → LoadError) (result : Except ε α) :
    IgnoresEvents (Action.lift wrap result) := by
  intro session other h
  rw [run_lift, run_lift]
  exact ⟨rfl, h⟩

/-- The answer may depend on what was asked before, which is the same. -/
theorem ask (stage : Stage) (node : NodeId) (call : Call)
    (answer : List Call → Except String α) : IgnoresEvents (Action.ask stage node call answer) := by
  intro session other h
  rw [run_ask, run_ask, h.calls]
  exact ⟨rfl, h.called call⟩

theorem bind {first : Action α} {next : α → Action β} (hfirst : IgnoresEvents first)
    (hnext : ∀ value, IgnoresEvents (next value)) : IgnoresEvents (first >>= next) := by
  intro session other h
  obtain ⟨same, kept⟩ := hfirst session other h
  rw [run_bind, run_bind]
  rcases hrun : first.run session with ⟨result, middle⟩
  rcases hrunOther : first.run other with ⟨resultOther, middleOther⟩
  rw [hrun, hrunOther] at same kept
  change result = resultOther at same
  subst same
  cases result with
  | error error => exact ⟨rfl, kept⟩
  | ok value => exact hnext value middle middleOther kept

end IgnoresEvents

/-- Neither questions nor results depend on events, and the registry holds none. -/
theorem Composed.ignoresEvents {action : Action α} (h : Composed action) :
    IgnoresEvents action := by
  induction h with
  | pure value => exact .pure value
  | tell events => exact .tell events
  | lift wrap result => exact .lift wrap result
  | ask stage node call answer => exact .ask stage node call answer
  | bind _ _ begins goesOn => exact begins.bind goesOn
  | look same _ goesOn =>
      intro session other h
      rw [run_get_bind, run_get_bind, ← same session other h.registry]
      exact goesOn session session other h

end Action

namespace Loader

variable {loader : Loader} {session other : Session}

/-- A registration comes to the same in sessions that match. -/
theorem registerNode_of_matches (h : session.Matches other) (node : NodeId) :
    (loader.registerNode node session).1 = (loader.registerNode node other).1 ∧
      (loader.registerNode node session).2.Matches (loader.registerNode node other).2 := by
  obtain ⟨same, kept⟩ := (loader.space.composed_plan node).ignoresEvents session other h
  unfold registerNode
  rcases hplan : (loader.space.plan node).run session with ⟨planned, middle⟩
  rcases hplanOther : (loader.space.plan node).run other with ⟨plannedOther, middleOther⟩
  rw [hplan, hplanOther] at same kept
  change planned = plannedOther at same
  subst same
  cases planned with
  | error error => exact ⟨rfl, kept⟩
  | ok plan =>
      obtain ⟨registry, loaded, calls⟩ := kept
      dsimp only
      rw [registry, loaded]
      exact ⟨rfl, rfl, rfl, calls⟩

/-- So do several, one after the other. -/
theorem registerNodes_of_matches (h : session.Matches other) (nodes : List NodeId) :
    (loader.registerNodes nodes session).1 = (loader.registerNodes nodes other).1 ∧
      (loader.registerNodes nodes session).2.Matches (loader.registerNodes nodes other).2 := by
  induction nodes generalizing session other with
  | nil => exact ⟨rfl, h⟩
  | cons node rest ih =>
      obtain ⟨result, kept⟩ := @registerNode_of_matches loader _ _ h node
      obtain ⟨events, single⟩ := loader.registerNodes_singleton node session
      obtain ⟨others, singleOther⟩ := loader.registerNodes_singleton node other
      obtain ⟨outcome, keptAll⟩ := ih (kept.tell events others)
      rw [registerNodes_cons, registerNodes_cons node rest other, single, singleOther, result,
        outcome]
      exact ⟨rfl, keptAll⟩

end Loader

end TypeDictionary
