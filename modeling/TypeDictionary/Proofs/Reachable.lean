import TypeDictionary.Proofs.Build
import TypeDictionary.Proofs.Registration
import TypeDictionary.Proofs.Soundness

/-!
# Reachable sessions

A session comes about from a new registry by any requests in any order, each to a loader of its own,
so servers may differ and change between requests. All that such a session does to its registry is
to carry out plans. A property of the registry that one successful registration preserves therefore
holds of every reachable session.

Well-formedness is such a property. The types that a dictionary takes from the registry are
well-formed types under their own names, so the types that it adds are, too.
-/

namespace TypeDictionary

/-- What can be asked of a loader. -/
inductive Request
  | registerNode (node : NodeId)
  | registerNodes (nodes : List NodeId)
  | load (nodes : Option (List NodeId))

namespace Loader

/-- The session after a request, whatever the answer is. -/
def serve (loader : Loader) (session : Session) : Request → Session
  | .registerNode node => (loader.registerNode node session).2
  | .registerNodes nodes => (loader.registerNodes nodes session).2
  | .load nodes => (loader.load nodes session).2

end Loader

namespace Session

/-- The sessions that requests lead to from a new registry. -/
inductive Reachable : Session → Prop
  | start (logs : Bool) : Reachable (start (.new logs))
  | serve {session : Session} (earlier : Reachable session) (loader : Loader) (request : Request) :
      Reachable (loader.serve session request)

/-- A property of a registry and the number of dictionaries in it that every successful registration
preserves. -/
def Invariant (property : Registry → Nat → Prop) : Prop :=
  ∀ (loader : Loader) (node : NodeId) (session after : Session) (report : Report),
    loader.registerNode node session = (.ok report, after) →
      property session.registry session.loaded → property after.registry after.loaded

namespace Invariant

variable {property : Registry → Nat → Prop} {session : Session}

theorem registerNode (h : Invariant property) (loader : Loader) (node : NodeId)
    (holds : property session.registry session.loaded) :
    property (loader.registerNode node session).2.registry
      (loader.registerNode node session).2.loaded := by
  rcases run : loader.registerNode node session with ⟨result, after⟩
  cases result with
  | error error =>
      obtain ⟨registry, loaded⟩ := Loader.kept_of_registerNode_error run
      rw [registry, loaded]
      exact holds
  | ok report => exact h loader node session after report run holds

/-- Failures among several nodes leave only events behind. -/
theorem registerNodes (h : Invariant property) (loader : Loader) (nodes : List NodeId)
    (holds : property session.registry session.loaded) :
    property (loader.registerNodes nodes session).2.registry
      (loader.registerNodes nodes session).2.loaded := by
  induction nodes generalizing session with
  | nil => exact holds
  | cons node rest ih =>
      have next := h.registerNode loader node holds
      unfold Loader.registerNodes
      rcases run : loader.registerNode node session with ⟨result, after⟩
      rw [run] at next
      cases result with
      | error error => exact @ih (after.tell [.nodeFailed node error.stage error.message]) next
      | ok report => exact ih next

theorem load (h : Invariant property) (loader : Loader) (nodes : Option (List NodeId))
    (holds : property session.registry session.loaded) :
    property (loader.load nodes session).2.registry (loader.load nodes session).2.loaded := by
  cases nodes with
  | some nodes => exact h.registerNodes loader nodes holds
  | none =>
      unfold Loader.load
      rcases run : loader.discover session with ⟨result, after⟩
      obtain ⟨registry, loaded⟩ := loader.onlyTraces_discoverAction.kept run
      rw [← registry, ← loaded] at holds
      cases result with
      | error error => exact holds
      | ok found => exact h.registerNodes loader found holds

theorem serve (h : Invariant property) (loader : Loader) (request : Request)
    (holds : property session.registry session.loaded) :
    property (loader.serve session request).registry (loader.serve session request).loaded := by
  cases request with
  | registerNode node => exact h.registerNode loader node holds
  | registerNodes nodes => exact h.registerNodes loader nodes holds
  | load nodes => exact h.load loader nodes holds

/-- An invariant that holds of new registries holds of all that requests make of them. -/
theorem of_reachable (h : Invariant property) (start : ∀ logs, property (.new logs) 0)
    (reachable : session.Reachable) : property session.registry session.loaded := by
  induction reachable with
  | start logs => exact start logs
  | serve _ loader request ih => exact h.serve loader request ih

end Invariant

end Session

/-- An entry under the name of its type, which is well formed all the way down. -/
structure Entry.WellFormed (entry : Entry) : Prop where
  name_eq : entry.name = entry.handle.type.name
  type : entry.handle.type.WellFormed

namespace Registry

variable {registry : Registry}

/-- What a well-formed registry knows is well formed and has the name it is known under. -/
theorem Every.known (h : registry.Every Entry.WellFormed) : registry.known.WellFormed := by
  intro name type htype
  unfold Registry.known type? at htype
  rw [Option.map_map, Option.map_eq_some_iff] at htype
  obtain ⟨entry, hentry, rfl⟩ := htype
  obtain ⟨hname, sound⟩ := h.byName name entry hentry
  exact ⟨sound.name_eq.symm.trans hname, sound.type⟩

end Registry

/-- The document of a node defines well-formed types if the registry has only such. -/
theorem AddressSpace.Defines.wellFormed {space : AddressSpace} {session : Session} {node : NodeId}
    {model : Model} {types : TypeSet} (h : space.Defines session node model types)
    (sound : session.registry.Every Entry.WellFormed) {name : String} {type : ResolvedType}
    (htype : types.get? name = some type) : type.name = name ∧ type.WellFormed := by
  obtain ⟨bytes, root, _, _, built, resolved⟩ := h
  exact Model.wellFormed_of_resolve resolved (Model.wellFormed_of_build built) sound.known htype

/-- A registration keeps a registry well formed. -/
theorem Registry.wellFormed_invariant :
    Session.Invariant fun registry _ => registry.Every Entry.WellFormed := by
  intro loader node session after report run before
  obtain ⟨plan, _, hplan, sound, done⟩ := Loader.registerNode_eq_ok run
  obtain ⟨model, _, defines, _⟩ := AddressSpace.plan_eq_ok hplan
  rw [done.registry]
  apply before.addAll
  intro entry hentry
  obtain ⟨type, htype, handle⟩ := Plan.handle_of_mem_entries sound.indexed hentry
  obtain ⟨named, wellFormed⟩ := defines.wellFormed before htype
  constructor
  · rw [handle]
    exact named.symm
  · rw [handle]
    exact wellFormed

/-- Every registration makes handles of its own: those it finds come from earlier ones. -/
theorem Registry.origin_invariant :
    Session.Invariant fun registry loaded =>
      registry.Every fun entry => entry.handle.origin < loaded := by
  intro loader node session after report run earlier
  obtain ⟨plan, _, _, sound, done⟩ := Loader.registerNode_eq_ok run
  rw [done.registry, done.loaded]
  apply Every.addAll
  · exact earlier.mono fun _ origin => Nat.lt_succ_of_lt origin
  · intro entry hentry
    obtain ⟨type, _, handle⟩ := Plan.handle_of_mem_entries sound.indexed hentry
    rw [handle]
    exact Nat.lt_succ_self session.loaded

namespace Session.Reachable

variable {session : Session}

theorem origin_lt (h : session.Reachable) :
    session.registry.Every fun entry => entry.handle.origin < session.loaded :=
  Registry.origin_invariant.of_reachable (fun _ => Registry.every_new) h

/-- Handles tell apart the registrations that made them. What a name or an identifier answers with
after a registration is what it answered with before, or it is not the same as anything that the
registry held before. -/
theorem same_or_fresh (h : session.Reachable) {loader : Loader} {node : NodeId} {report : Report}
    {after : Session} (run : loader.registerNode node session = (.ok report, after)) :
    (∀ name handle, after.registry.type? name = some handle →
      session.registry.type? name = some handle ∨
        session.registry.Every fun old => old.handle.same handle = false) ∧
    ∀ id handle, after.registry.typeById? id = some handle →
      session.registry.typeById? id = some handle ∨
        session.registry.Every fun old => old.handle.same handle = false := by
  obtain ⟨plan, _, _, sound, done⟩ := Loader.registerNode_eq_ok run
  -- All that the registration adds has its number, and all that was there has a smaller one.
  have fresh (type : ResolvedType) :
      session.registry.Every fun old => old.handle.same ⟨session.loaded, type⟩ = false := by
    apply h.origin_lt.mono
    intro old earlier
    simp [Handle.same, Nat.ne_of_lt earlier]
  constructor
  · intro name handle found
    rw [Registry.type?, done.entry?_eq sound] at found
    cases htype : plan.types.get? name with
    | none =>
        rw [htype, Option.map_none, Option.none_or] at found
        exact .inl found
    | some type =>
        rw [htype] at found
        cases found
        exact .inr (fresh type)
  · intro id handle found
    rw [Registry.typeById?, done.entryById?_eq sound] at found
    cases hlast : report.bound.findRev? fun pair => decide (pair.2 = id) with
    | none =>
        rw [hlast, Option.bind_none, Option.none_or] at found
        exact .inl found
    | some last =>
        obtain ⟨_, type, htype⟩ := done.exists_type_of_last sound hlast
        rw [hlast, Option.bind_some, Plan.boundEntry, htype] at found
        cases found
        exact .inr (fresh type)

/-- In every reachable session both indexes hold well-formed entries only. -/
theorem registry_wellFormed (h : session.Reachable) : session.registry.Every Entry.WellFormed :=
  Registry.wellFormed_invariant.of_reachable (fun _ => Registry.every_new) h

/-- A record that holds a record which the same dictionary defines. -/
theorem registry_wellFormed_sample :
    ∃ session entry, Reachable session ∧ session.registry.entry? "Q" = some entry ∧
      entry.handle.type = .record
        ⟨"Q", [⟨"p", .record ⟨"P", []⟩, false, .instanceOf "P"⟩]⟩ ∧ entry.WellFormed := by
  let loader := Loader.sample
    ("<d><StructuredType Name='P'/><StructuredType Name='Q'>" ++
      "<Field Name='p' TypeName='P'/></StructuredType></d>") (.ok [])
  let session := loader.serve (.start (.new true)) (.registerNode ⟨"d"⟩)
  have reachable : session.Reachable := serve (start true) loader _
  have found : (session.registry.type? "Q").map Handle.type = some (.record
      ⟨"Q", [⟨"p", .record ⟨"P", []⟩, false, .instanceOf "P"⟩]⟩) := by decide +kernel
  unfold Registry.type? at found
  rw [Option.map_map, Option.map_eq_some_iff] at found
  obtain ⟨entry, hentry, htype⟩ := found
  exact ⟨session, entry, reachable, hentry, htype,
    ((registry_wellFormed reachable).byName "Q" entry hentry).2⟩

end Session.Reachable

end TypeDictionary
