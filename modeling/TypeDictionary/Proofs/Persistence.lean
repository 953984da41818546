import TypeDictionary.Proofs.Attempts
import TypeDictionary.Proofs.Reachable
import TypeDictionary.Proofs.Stateless

/-!
# Registrations that go on succeeding

A registry only grows: a name that has a type never loses it, though it may come to mean another
one. A reference that means something among the known types goes on meaning something when more are
known, perhaps something else, and nothing but the known types can make a difference to a stateless
server's nodes. So a node that could be registered once can be registered again, whatever has been
registered meanwhile, and a second pass over the same nodes fails at no node that has not failed in
the first.
-/

namespace TypeDictionary

/-- Every name with a known type has one among the later types, not necessarily the same. -/
def KnownTypes.CoveredBy (known later : KnownTypes) : Prop :=
  ∀ name type, known name = some type → ∃ other, later name = some other

namespace KnownTypes

variable {known later : KnownTypes} {earlier : List String}

theorem Provides.mono {name : String} (h : known.Provides earlier name)
    (covered : known.CoveredBy later) : later.Provides earlier name := by
  rcases h with defined | ⟨type, found⟩ | builtin
  · exact .inl defined
  · exact .inr (.inl (covered name type found))
  · exact .inr (.inr builtin)

/-- What suffices for some definitions goes on doing so when more is known. -/
theorem Suffices.mono {definitions : List Definition} (h : known.Suffices earlier definitions)
    (covered : known.CoveredBy later) : later.Suffices earlier definitions := by
  intro before record after split field hfield name hname
  exact (h before record after split field hfield name hname).mono covered

end KnownTypes

theorem Registry.known_coveredBy_addAll (registry : Registry) (entries : List Entry) :
    registry.known.CoveredBy (registry.addAll entries).known := by
  intro name type found
  unfold known type? at found ⊢
  rw [entry?_addAll]
  cases entries.findRev? fun entry => decide (entry.name = name) with
  | none => exact ⟨type, found⟩
  | some entry => exact ⟨entry.handle.type, rfl⟩

namespace Session

/-- The sessions that a session leads to by further registrations: those that loaders make on
request, of whichever servers, and those of single types. -/
inductive LeadsTo (session : Session) : Session → Prop
  | refl : LeadsTo session session
  | serve {later : Session} (earlier : LeadsTo session later) (loader : Loader)
      (request : Request) : LeadsTo session (loader.serve later request)
  | register {later : Session} (earlier : LeadsTo session later) (name : String)
      (id : Option WireId) (handle : Handle) :
      LeadsTo session { later with registry := (later.registry.register name id handle).2 }

namespace LeadsTo

variable {session middle later : Session}

theorem trans (first : session.LeadsTo middle) (second : middle.LeadsTo later) :
    session.LeadsTo later := by
  induction second with
  | refl => exact first
  | serve _ loader request ih => exact ih.serve loader request
  | register _ name id handle ih => exact ih.register name id handle

theorem registerNodes (loader : Loader) (nodes : List NodeId) (session : Session) :
    session.LeadsTo (loader.registerNodes nodes session).2 :=
  refl.serve loader (.registerNodes nodes)

/-- All that registrations do to the entries of a registry is to add more. -/
theorem grown (h : session.LeadsTo later) :
    ∃ entries, later.registry = session.registry.addAll entries := by
  -- Whatever is requested, a registry changes only where a plan is carried out.
  have grows : Invariant fun registry _ =>
      ∃ entries, registry = session.registry.addAll entries := by
    rintro loader node before after report run ⟨entries, hbefore⟩
    obtain ⟨plan, _, _, _, done⟩ := Loader.registerNode_eq_ok run
    refine ⟨entries ++ plan.entries before.loaded, ?_⟩
    rw [done.registry, hbefore, Registry.addAll_append]
  induction h with
  | refl => exact ⟨[], rfl⟩
  | serve _ loader request ih => exact grows.serve loader request ih
  | register _ name id handle ih =>
      obtain ⟨entries, hlater⟩ := ih
      refine ⟨entries ++ [⟨id, name, handle⟩], ?_⟩
      rw [Registry.addAll_append, ← hlater]
      rfl

end LeadsTo

end Session

namespace Loader

variable {loader : Loader} {session later : Session}

/-- A node that can be registered in a session can be registered in all that it leads to. -/
theorem registerNode_again (stateless : loader.space.IsStateless) {node : NodeId}
    (first : (loader.registerNode node session).1.isOk = true) (leads : session.LeadsTo later) :
    (loader.registerNode node later).1.isOk = true := by
  obtain ⟨model, serves, sufficient⟩ := (isOk_registerNode_iff_serves stateless).mp first
  obtain ⟨entries, registry⟩ := leads.grown
  refine (isOk_registerNode_iff_serves stateless).mpr ⟨model, serves, ?_⟩
  rw [registry]
  exact sufficient.mono (Registry.known_coveredBy_addAll _ entries)

/-- In a later pass over the same nodes all those succeed that succeeded in the first, place by
place. By induction on the nodes: the session in which a node is tried first leads to the end of the
first pass, and from there to the session in which it is tried again. -/
theorem attempts_again (stateless : loader.space.IsStateless) (nodes : List NodeId)
    (leads : (loader.registerNodes nodes session).2.LeadsTo later) :
    List.Forall₂ (fun first again => first.isOk = true → again.isOk = true)
      (loader.attempts nodes session) (loader.attempts nodes later) := by
  induction nodes generalizing session later with
  | nil => exact .nil
  | cons node rest ih =>
      have begun : session.LeadsTo later := (Session.LeadsTo.registerNodes loader _ _).trans leads
      rw [registerNodes_cons] at leads
      have others := ih (leads.trans (.registerNodes loader [node] later))
      exact .cons (fun first => registerNode_again stateless first begun) others

/-- With a stateless server a registration that succeeded goes on succeeding, whatever has been
registered meanwhile. So in a later pass over some nodes each succeeds that has succeeded in its
place before, and the nodes that fail are among those that have failed. -/
theorem registrations_persist (stateless : loader.space.IsStateless) :
    (∀ (node : NodeId) (session later : Session),
      (loader.registerNode node session).1.isOk = true → session.LeadsTo later →
        (loader.registerNode node later).1.isOk = true) ∧
    ∀ (nodes : List NodeId) (session later : Session),
      (loader.registerNodes nodes session).2.LeadsTo later →
        (loader.registerNodes nodes session).1 =
          .ofAttempts (nodes.zip (loader.attempts nodes session)) ∧
        List.Forall₂ (fun first again => first.isOk = true → again.isOk = true)
          (loader.attempts nodes session) (loader.attempts nodes later) ∧
        ((loader.registerNodes nodes later).1.failures.map Prod.fst).Sublist
          ((loader.registerNodes nodes session).1.failures.map Prod.fst) := by
  refine ⟨fun _ _ _ first leads => registerNode_again stateless first leads, ?_⟩
  intro nodes session later leads
  have again := attempts_again stateless nodes leads
  refine ⟨outcome_registerNodes nodes session, again, ?_⟩
  rw [outcome_registerNodes, outcome_registerNodes]
  exact Outcome.failures_sublist again

/-- A loader of a server with two dictionaries, of which `q` refers to a type of `d`. -/
def sampleDepending : Loader where
  settings := .standard
  space :=
    { document := fun _ node =>
        .ok ((if node = ⟨"d"⟩ then "<StructuredType Name='P'/>" else
          "<StructuredType Name='Q'><Field Name='p' TypeName='P'/></StructuredType>").toList.map
            Char.toUInt8)
      children := fun _ _ => .ok []
      descriptions := fun _ _ => .ok [] }

/-- The session after both have been loaded, the one that depends on the other before it. -/
def samplePass : Session :=
  (sampleDepending.registerNodes [⟨"q"⟩, ⟨"d"⟩] (.start (.new true))).2

/-- The first pass fails at `q`, and a second one fails there at most. -/
theorem registrations_persist_sample :
    (sampleDepending.registerNode ⟨"d"⟩ samplePass).1.isOk = true ∧
      (sampleDepending.registerNodes [⟨"q"⟩, ⟨"d"⟩] (.start (.new true))).1.failures.map Prod.fst =
        [⟨"q"⟩] ∧
      ((sampleDepending.registerNodes [⟨"q"⟩, ⟨"d"⟩] samplePass).1.failures.map Prod.fst).Sublist
        [⟨"q"⟩] := by
  have stateless : sampleDepending.space.IsStateless :=
    ⟨fun _ _ _ => rfl, fun _ _ _ => rfl, fun _ _ _ => rfl⟩
  have first : (sampleDepending.registerNode ⟨"d"⟩ (.start (.new true))).1.isOk = true := by
    decide +kernel
  have failed : (sampleDepending.registerNodes [⟨"q"⟩, ⟨"d"⟩] (.start (.new true))).1.failures.map
      Prod.fst = [⟨"q"⟩] := by decide +kernel
  obtain ⟨persists, passes⟩ := registrations_persist stateless
  obtain ⟨_, _, fewer⟩ := passes [⟨"q"⟩, ⟨"d"⟩] (.start (.new true)) samplePass .refl
  rw [failed] at fewer
  exact ⟨persists ⟨"d"⟩ _ samplePass first (.registerNodes sampleDepending _ _), failed, fewer⟩

end Loader

end TypeDictionary
