import TypeDictionary.Proofs.Events

/-!
# Dictionaries that are found

A loader that is given no nodes looks for them below the root of the dictionaries. If the root
cannot be listed, that is all that was asked, and loading fails. Nothing else makes it fail: the
children of the root, without those whose names are left out, are then registered like any other
nodes, and a node that cannot be registered is one failure of the outcome.

Which documents are asked for is read off the calls. One registration asks for one document, the one
of its node, and asks for it first; so a run over several nodes asks for theirs, in their order. A
node that has no name but those left out is never among them.
-/

namespace TypeDictionary

/-- The node whose document is asked for. -/
def Call.fetched? : Call → Option NodeId
  | document node => some node
  | _ => none

theorem Call.document_mem_iff {calls : List Call} {node : NodeId} :
    .document node ∈ calls ↔ node ∈ calls.filterMap Call.fetched? := by
  rw [List.mem_filterMap]
  constructor
  · intro h
    exact ⟨_, h, rfl⟩
  · rintro ⟨call, hcall, hnode⟩
    cases call <;> cases hnode
    exact hcall

theorem Child.fetched_inquiries (children : List Child) :
    (inquiries children).filterMap Call.fetched? = [] := by
  rw [inquiries, List.filterMap_map, List.filterMap_eq_nil_iff]
  intro child _
  rfl

namespace Loader

variable {loader : Loader} {session : Session}

/-- The nodes below the root that are registered, in the order of its children. -/
def unskipped (loader : Loader) (children : List Child) : List NodeId :=
  (children.filter fun child => child.browseName ∉ loader.settings.skipped).map Child.node

theorem map_wanted (loader : Loader) (children : List Child) :
    (loader.wanted children).map Child.node = loader.unskipped children := by
  unfold wanted unskipped Settings.skips
  congr 1
  apply List.filter_congr
  intro child _
  rw [List.contains_eq_mem, decide_not]

/-- A registration asks for the document of its node, and for no other. -/
theorem fetched_registerNode (loader : Loader) (node : NodeId) (session : Session) :
    ∃ calls, (loader.registerNode node session).2.trace.calls = session.trace.calls ++ calls ∧
      calls.filterMap Call.fetched? = [node] := by
  rcases run : loader.registerNode node session with ⟨result, after⟩
  show ∃ calls, after.trace.calls = session.trace.calls ++ calls ∧ _
  rw [calls_registerNode run]
  by_cases defined : ∃ model types, loader.space.Defines session node model types
  · obtain ⟨model, types, defines⟩ := defined
    obtain ⟨middle, before, hplan⟩ := AddressSpace.run_plan_of_defines defines
    obtain ⟨asked, calls, _⟩ := AddressSpace.calls_crossReference hplan.symm
    rw [before, List.append_assoc] at calls
    exact ⟨_, calls, congrArg (List.cons node) (Child.fetched_inquiries asked)⟩
  · obtain ⟨error, middle, calls, hplan⟩ := AddressSpace.run_plan_of_not_defines defined
    rw [hplan]
    exact ⟨_, calls, rfl⟩

/-- Several registrations ask for the documents of their nodes, in their order. -/
theorem fetched_registerNodes (nodes : List NodeId) (session : Session) :
    ∃ calls, (loader.registerNodes nodes session).2.trace.calls = session.trace.calls ++ calls ∧
      calls.filterMap Call.fetched? = nodes := by
  induction nodes generalizing session with
  | nil => exact ⟨[], (List.append_nil _).symm, rfl⟩
  | cons node rest ih =>
      obtain ⟨first, calls, fetched⟩ := loader.fetched_registerNode node session
      obtain ⟨events, single⟩ := loader.registerNodes_singleton node session
      obtain ⟨later, callsLater, fetchedLater⟩ := ih (loader.registerNodes [node] session).2
      refine ⟨first ++ later, ?_, ?_⟩
      · rw [registerNodes_cons, callsLater, single, ← List.append_assoc, ← calls]
        rfl
      · rw [List.filterMap_append, fetched, fetchedLater]
        rfl

/-- What the server answers when the root of the dictionaries is listed. -/
def listing (loader : Loader) (session : Session) : Except String (List Child) :=
  loader.space.children session.trace.calls loader.settings.dictionaryRoot

/-- The session in which the root has been listed, and nothing else has happened. -/
def listed (loader : Loader) (session : Session) : Session :=
  session.called (.children loader.settings.dictionaryRoot)

theorem load_of_refused {reason : String} (h : loader.listing session = .error reason) :
    loader.load none session =
      (.error (.refused .discover loader.settings.dictionaryRoot reason),
        loader.listed session) := by
  unfold load discover discoverAction
  rw [Action.run_ask_bind_of_error h]
  rfl

/-- The children that are left out are told of, and the others are registered. -/
theorem load_of_listed {children : List Child} (h : loader.listing session = .ok children) :
    ∃ events, loader.load none session =
      let (outcome, after) := loader.registerNodes (loader.unskipped children)
        ((loader.listed session).tell events)
      (.ok outcome, after) := by
  unfold load discover discoverAction
  rw [Action.run_ask_bind_of_ok h, Action.run_tell_bind, Action.run_tell_bind, map_wanted,
    Session.tell_tell]
  exact ⟨_, rfl⟩

/-- Loading what is found fails exactly if the root cannot be listed, and then nothing else has been
asked and the session is as it was. Otherwise it comes to what registering the children of the root
comes to, without those whose names are left out: the same outcome, the same registry and the same
questions, in any session that has the same registry and has asked the same. The documents asked for
are those of these children, in their order, so none of a node that has only names left out. -/
theorem load_characterization (loader : Loader) (session : Session) :
    (∀ error after, loader.load none session = (.error error, after) ↔
      ∃ reason, loader.listing session = .error reason ∧
        error = .refused .discover loader.settings.dictionaryRoot reason ∧
        after = loader.listed session) ∧
    ∀ children, loader.listing session = .ok children →
      ∃ outcome after calls, loader.load none session = (.ok outcome, after) ∧
        (∀ fresh, (loader.listed session).Matches fresh →
          (loader.registerNodes (loader.unskipped children) fresh).1 = outcome ∧
          (loader.registerNodes (loader.unskipped children) fresh).2.Matches after) ∧
        after.trace.calls =
          session.trace.calls ++ .children loader.settings.dictionaryRoot :: calls ∧
        calls.filterMap Call.fetched? = loader.unskipped children ∧
        ∀ node, (∀ child ∈ children, child.node = node →
          child.browseName ∈ loader.settings.skipped) → .document node ∉ calls := by
  constructor
  · intro error after
    cases answer : loader.listing session with
    | error reason =>
        rw [load_of_refused answer]
        constructor
        · rintro ⟨⟩
          exact ⟨reason, rfl, rfl, rfl⟩
        · rintro ⟨_, ⟨⟩, rfl, rfl⟩
          rfl
    | ok children =>
        obtain ⟨events, loaded⟩ := load_of_listed answer
        rw [loaded]
        constructor
        · rintro ⟨⟩
        · rintro ⟨reason, ⟨⟩, _⟩
  · intro children answer
    obtain ⟨events, loaded⟩ := load_of_listed answer
    obtain ⟨calls, asked, fetched⟩ := loader.fetched_registerNodes (loader.unskipped children)
      ((loader.listed session).tell events)
    refine ⟨_, _, calls, loaded, ?_, ?_, fetched, ?_⟩
    · intro fresh matching
      exact registerNodes_of_matches (matching.symm.tell_right events) (loader.unskipped children)
    · rw [asked]
      exact List.append_assoc _ _ _
    · intro node skipped called
      rw [Call.document_mem_iff, fetched] at called
      obtain ⟨child, hchild, rfl⟩ := List.mem_map.mp called
      obtain ⟨hmem, kept⟩ := List.mem_filter.mp hchild
      exact of_decide_eq_true kept (skipped child hmem rfl)

/-- A loader that leaves `Opc.Ua` out. Its server lists the root only once. There `a` has no other
name, `b` has one, and `c` will not list its own children. -/
def sampleFolder : Loader where
  settings := .standard
  space :=
    { document := fun _ _ => .ok ("<StructuredType Name='P'/>".toList.map Char.toUInt8)
      children := fun earlier node =>
        if node = ⟨"i=93"⟩ then
          if earlier = [] then
            .ok [⟨"Opc.Ua", ⟨"a"⟩⟩, ⟨"X", ⟨"b"⟩⟩, ⟨"Opc.Ua", ⟨"b"⟩⟩, ⟨"Y", ⟨"c"⟩⟩]
          else .error "busy"
        else if node = ⟨"c"⟩ then .error "gone" else .ok []
      descriptions := fun _ _ => .ok [] }

/-- The refusal of `c` is one failure among the results. That of the root, when it is listed again,
is all that comes of loading a second time. -/
theorem load_characterization_sample :
    ∃ outcome after calls,
      sampleFolder.load none (.start (.new true)) = (.ok outcome, after) ∧
      outcome.failures = [(⟨"c"⟩, .refused .crossReference ⟨"c"⟩ "gone")] ∧
      after.trace.calls = .children ⟨"i=93"⟩ :: calls ∧
      calls.filterMap Call.fetched? = [⟨"b"⟩, ⟨"c"⟩] ∧ .document ⟨"a"⟩ ∉ calls ∧
      sampleFolder.load none after =
        (.error (.refused .discover ⟨"i=93"⟩ "busy"), sampleFolder.listed after) := by
  have failed : (sampleFolder.load none (.start (.new true))).1.map Outcome.failures =
      .ok [(⟨"c"⟩, .refused .crossReference ⟨"c"⟩ "gone")] := by decide +kernel
  obtain ⟨_, found⟩ := load_characterization sampleFolder (.start (.new true))
  obtain ⟨outcome, after, calls, run, _, asked, fetched, left⟩ := found _ rfl
  rw [run] at failed
  have again : sampleFolder.listing after = .error "busy" := by
    rw [listing, asked]
    rfl
  refine ⟨outcome, after, calls, run, Except.ok.inj failed, asked, fetched, ?_, ?_⟩
  · exact left ⟨"a"⟩ (by decide)
  · exact ((load_characterization sampleFolder after).1 _ _).mpr ⟨"busy", again, rfl, rfl⟩

end Loader

end TypeDictionary
