import Mathlib.Data.List.Forall2
import TypeDictionary.Loader.Basic

/-!
# Several nodes in turn

Nodes are registered one after the other, each in the session that those before it have left,
whether or not they could be registered. What becomes of them is a list with one result for each
node; the outcome sorts these results into reports and failures and forgets their places.
-/

namespace TypeDictionary

namespace Outcome

/-- What became of some nodes and then of others. -/
def append (first second : Outcome) : Outcome :=
  ⟨first.reports ++ second.reports, first.failures ++ second.failures⟩

/-- The failure of a node, if it is one. -/
def failure? (attempt : NodeId × Except LoadError Report) : Option (NodeId × LoadError) :=
  match attempt.2 with
  | .ok _ => none
  | .error error => some (attempt.1, error)

/-- The outcome that sorts the results of some nodes. -/
def ofAttempts (attempts : List (NodeId × Except LoadError Report)) : Outcome where
  reports := attempts.filterMap fun attempt => attempt.2.toOption
  failures := attempts.filterMap failure?

theorem append_assoc (first second third : Outcome) :
    (first.append second).append third = first.append (second.append third) := by
  simp only [append, List.append_assoc]

theorem ofAttempts_append (first second : List (NodeId × Except LoadError Report)) :
    ofAttempts (first ++ second) = (ofAttempts first).append (ofAttempts second) := by
  simp only [ofAttempts, append, List.filterMap_append]

theorem reports_ofAttempts_singleton (node : NodeId) (result : Except LoadError Report) :
    (ofAttempts [(node, result)]).reports = result.toOption.toList := by
  cases result <;> rfl

/-- Fewer nodes fail if all those succeed that succeeded before. -/
theorem failures_sublist {nodes : List NodeId}
    {first again : List (Except LoadError Report)}
    (h : List.Forall₂ (fun first again => first.isOk = true → again.isOk = true) first again) :
    ((ofAttempts (nodes.zip again)).failures.map Prod.fst).Sublist
      ((ofAttempts (nodes.zip first)).failures.map Prod.fst) := by
  induction h generalizing nodes with
  | nil => simp
  | @cons first again firsts agains kept _ ih =>
      cases nodes with
      | nil => simp
      | cons node rest =>
          have others := @ih rest
          cases first with
          | error error =>
              cases again with
              | error other => exact others.cons_cons node
              | ok report => exact others.cons node
          | ok report =>
              cases again with
              | error other => cases kept rfl
              | ok other => exact others

end Outcome

namespace Loader

variable {loader : Loader}

/-- The result of each of several nodes, in their order. -/
def attempts (loader : Loader) : List NodeId → Session → List (Except LoadError Report)
  | [], _ => []
  | node :: rest, session =>
    (loader.registerNode node session).1 ::
      loader.attempts rest (loader.registerNodes [node] session).2

/-- The first node is registered in the session as it is, and the others in what that leaves. -/
theorem registerNodes_cons (node : NodeId) (rest : List NodeId) (session : Session) :
    loader.registerNodes (node :: rest) session =
      ((Outcome.ofAttempts [(node, (loader.registerNode node session).1)]).append
          (loader.registerNodes rest (loader.registerNodes [node] session).2).1,
        (loader.registerNodes rest (loader.registerNodes [node] session).2).2) := by
  rcases run : loader.registerNode node session with ⟨result, after⟩
  simp only [registerNodes, run]
  cases result <;> rfl

/-- Registering some nodes and then others is registering them all. -/
theorem registerNodes_append (first second : List NodeId) (session : Session) :
    loader.registerNodes (first ++ second) session =
      ((loader.registerNodes first session).1.append
          (loader.registerNodes second (loader.registerNodes first session).2).1,
        (loader.registerNodes second (loader.registerNodes first session).2).2) := by
  induction first generalizing session with
  | nil => rfl
  | cons node rest ih =>
      rw [List.cons_append, registerNodes_cons, ih, registerNodes_cons node rest,
        Outcome.append_assoc]

/-- Trying one node leaves what registering it leaves; a failure is told of besides. -/
theorem registerNodes_singleton (loader : Loader) (node : NodeId) (session : Session) :
    ∃ events, (loader.registerNodes [node] session).2 =
      (loader.registerNode node session).2.tell events := by
  rcases run : loader.registerNode node session with ⟨result, after⟩
  simp only [registerNodes, run]
  cases result with
  | ok report =>
      refine ⟨[], ?_⟩
      simp only [Session.tell, List.append_nil]
  | error error => exact ⟨[.nodeFailed node error.stage error.message], rfl⟩

/-- The outcome sorts the results, each with its node. -/
theorem outcome_registerNodes (nodes : List NodeId) (session : Session) :
    (loader.registerNodes nodes session).1 =
      .ofAttempts (nodes.zip (loader.attempts nodes session)) := by
  induction nodes generalizing session with
  | nil => rfl
  | cons node rest ih =>
      rw [registerNodes_cons, ih]
      exact (Outcome.ofAttempts_append [_] _).symm

end Loader

end TypeDictionary
