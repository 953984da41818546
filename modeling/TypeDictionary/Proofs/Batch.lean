import TypeDictionary.Proofs.Alike
import TypeDictionary.Proofs.Persistence

/-!
# Several nodes and the failures among them

Registering several nodes is registering them one after the other, also where some of them fail: a
failure leaves the registry alone, and with a stateless server the later nodes depend on nothing
else. So the nodes that fail may as well be left out. Those left come to the same reports in the
same order, and to a registry that answers alike.
-/

namespace TypeDictionary

/-- The session in which the next node is tried when one could not be registered. -/
def Session.passOver (session : Session) (node : NodeId) (error : LoadError) : Session :=
  session.tell [.nodeFailed node error.stage error.message]

namespace Loader

variable {loader : Loader} {node : NodeId} {session fresh after : Session} {report : Report}
  {error : LoadError}

section Cons

variable (rest : List NodeId)

theorem registerNodes_cons_ok (run : loader.registerNode node session = (.ok report, after)) :
    loader.registerNodes (node :: rest) session =
      (⟨report :: (loader.registerNodes rest after).1.reports,
          (loader.registerNodes rest after).1.failures⟩,
        (loader.registerNodes rest after).2) := by
  simp only [registerNodes, run]

theorem registerNodes_cons_error
    (run : loader.registerNode node session = (.error error, after)) :
    loader.registerNodes (node :: rest) session =
      (⟨(loader.registerNodes rest (after.passOver node error)).1.reports,
          (node, error) :: (loader.registerNodes rest (after.passOver node error)).1.failures⟩,
        (loader.registerNodes rest (after.passOver node error)).2) := by
  simp only [registerNodes, run]
  rfl

theorem attempts_cons_ok (run : loader.registerNode node session = (.ok report, after)) :
    loader.attempts (node :: rest) session = .ok report :: loader.attempts rest after := by
  rw [attempts, registerNodes_cons_ok [] run, run]
  rfl

theorem attempts_cons_error (run : loader.registerNode node session = (.error error, after)) :
    loader.attempts (node :: rest) session =
      .error error :: loader.attempts rest (after.passOver node error) := by
  rw [attempts, registerNodes_cons_error [] run, run]
  rfl

end Cons

/-- There is one result for each node: what comes of it in the session that those before it have
left. -/
theorem getElem?_attempts (nodes : List NodeId) (session : Session) (place : Nat) :
    (loader.attempts nodes session)[place]? =
      nodes[place]?.map fun node =>
        (loader.registerNode node (loader.registerNodes (nodes.take place) session).2).1 := by
  induction nodes generalizing session place with
  | nil => rfl
  | cons node rest ih =>
      cases place with
      | zero => rfl
      | succ place =>
          have later := ih (loader.registerNodes [node] session).2 place
          rw [List.take_succ_cons, registerNodes_cons, List.getElem?_cons_succ, attempts,
            List.getElem?_cons_succ]
          exact later

/-- The nodes that are registered when several are tried. -/
def succeeding (loader : Loader) (nodes : List NodeId) (session : Session) : List NodeId :=
  ((nodes.zip (loader.attempts nodes session)).filter fun attempt => attempt.2.isOk).map Prod.fst

/-- All that several nodes leave is what they would leave one by one, without a word between them on
those that failed. -/
theorem kept_registerNodes_eq_foldl (stateless : loader.space.IsStateless) (nodes : List NodeId)
    (registry : session.registry = fresh.registry) (loaded : session.loaded = fresh.loaded) :
    (loader.registerNodes nodes session).2.registry =
      (nodes.foldl (fun session node => (loader.registerNode node session).2) fresh).registry := by
  induction nodes generalizing session fresh with
  | nil => exact registry
  | cons node rest ih =>
      have kept := kept_registerNode_of_eq stateless node registry loaded
      rcases run : loader.registerNode node session with ⟨result, after⟩
      rw [run] at kept
      cases result with
      | ok report =>
          rw [registerNodes_cons_ok rest run]
          exact ih kept.1 kept.2
      | error error =>
          rw [registerNodes_cons_error rest run]
          exact @ih (after.passOver node error) _ kept.1 kept.2

/-- The nodes that succeed among others succeed alone, with the same reports. By induction on the
nodes: a failure leaves the two registries as alike as they were, and so does a success in both. -/
theorem registerNodes_succeeding (stateless : loader.space.IsStateless) (nodes : List NodeId)
    (alike : session.registry.Alike fresh.registry) :
    (loader.registerNodes (loader.succeeding nodes session) fresh).1 =
        ⟨(loader.registerNodes nodes session).1.reports, []⟩ ∧
      (loader.registerNodes nodes session).2.registry.Alike
        (loader.registerNodes (loader.succeeding nodes session) fresh).2.registry := by
  induction nodes generalizing session fresh with
  | nil => exact ⟨rfl, alike⟩
  | cons node rest ih =>
      rcases run : loader.registerNode node session with ⟨result, after⟩
      cases result with
      | ok report =>
          obtain ⟨later, again, alikeAfter⟩ := registerNode_of_alike stateless run alike
          obtain ⟨outcome, alikeEnd⟩ := ih alikeAfter
          have kept : loader.succeeding (node :: rest) session =
              node :: loader.succeeding rest after := by
            rw [succeeding, attempts_cons_ok rest run]
            rfl
          rw [kept, registerNodes_cons_ok rest run, registerNodes_cons_ok _ again, outcome]
          exact ⟨rfl, alikeEnd⟩
      | error error =>
          obtain ⟨registry, _⟩ := kept_of_registerNode_error run
          have dropped : loader.succeeding (node :: rest) session =
              loader.succeeding rest (after.passOver node error) := by
            rw [succeeding, attempts_cons_error rest run]
            rfl
          rw [dropped, registerNodes_cons_error rest run]
          exact @ih (after.passOver node error) fresh (registry ▸ alike)

/-- Several nodes of a stateless server come to one result each, which the outcome sorts, and the
registry is that of registering them one by one. The nodes that succeed do so without the others
too, in any registry that answers alike. And some nodes followed by others are all of them. -/
theorem registerNodes_characterization (stateless : loader.space.IsStateless) (session : Session) :
    (∀ nodes,
      (loader.registerNodes nodes session).1 =
          .ofAttempts (nodes.zip (loader.attempts nodes session)) ∧
        (∀ place, (loader.attempts nodes session)[place]? =
          nodes[place]?.map fun node =>
            (loader.registerNode node (loader.registerNodes (nodes.take place) session).2).1) ∧
        (loader.registerNodes nodes session).2.registry =
          (nodes.foldl (fun session node => (loader.registerNode node session).2)
            session).registry ∧
        ∀ fresh : Session, session.registry.Alike fresh.registry →
          (loader.registerNodes (loader.succeeding nodes session) fresh).1 =
              ⟨(loader.registerNodes nodes session).1.reports, []⟩ ∧
            (loader.registerNodes nodes session).2.registry.Alike
              (loader.registerNodes (loader.succeeding nodes session) fresh).2.registry) ∧
    ∀ first second,
      loader.registerNodes (first ++ second) session =
        ((loader.registerNodes first session).1.append
            (loader.registerNodes second (loader.registerNodes first session).2).1,
          (loader.registerNodes second (loader.registerNodes first session).2).2) := by
  refine ⟨?_, fun first second => registerNodes_append first second session⟩
  intro nodes
  exact ⟨outcome_registerNodes nodes session, getElem?_attempts nodes session,
    kept_registerNodes_eq_foldl stateless nodes rfl rfl,
    fun _ alike => registerNodes_succeeding stateless nodes alike⟩

/-- The node `q` is tried twice, before and after the one it depends on. The first time may be left
out. -/
theorem registerNodes_characterization_sample :
    (sampleDepending.registerNodes [⟨"q"⟩, ⟨"d"⟩, ⟨"q"⟩] (.start (.new true))).1.failures.map
        Prod.fst = [⟨"q"⟩] ∧
      (sampleDepending.registerNodes [⟨"d"⟩, ⟨"q"⟩] (.start (.new true))).1 =
        ⟨(sampleDepending.registerNodes [⟨"q"⟩, ⟨"d"⟩, ⟨"q"⟩] (.start (.new true))).1.reports, []⟩ ∧
      (sampleDepending.registerNodes [⟨"q"⟩, ⟨"d"⟩, ⟨"q"⟩] (.start (.new true))).2.registry.Alike
        (sampleDepending.registerNodes [⟨"d"⟩, ⟨"q"⟩] (.start (.new true))).2.registry := by
  have stateless : sampleDepending.space.IsStateless :=
    ⟨fun _ _ _ => rfl, fun _ _ _ => rfl, fun _ _ _ => rfl⟩
  have failed : (sampleDepending.registerNodes [⟨"q"⟩, ⟨"d"⟩, ⟨"q"⟩]
      (.start (.new true))).1.failures.map Prod.fst = [⟨"q"⟩] := by decide +kernel
  have left : sampleDepending.succeeding [⟨"q"⟩, ⟨"d"⟩, ⟨"q"⟩] (.start (.new true)) =
      [⟨"d"⟩, ⟨"q"⟩] := by decide +kernel
  have whole := (registerNodes_characterization stateless (.start (.new true))).1
    [⟨"q"⟩, ⟨"d"⟩, ⟨"q"⟩]
  have again := whole.2.2.2 (.start (.new true)) (.refl _)
  rw [left] at again
  exact ⟨failed, again⟩

end Loader

end TypeDictionary
