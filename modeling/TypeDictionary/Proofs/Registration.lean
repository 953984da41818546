import Mathlib.Data.Prod.Basic
import TypeDictionary.Loader.Basic
import TypeDictionary.Proofs.Plan
import TypeDictionary.Proofs.Registry

/-!
# Registering the types of a node

A plan is carried out by adding entries: one for each bound name in the order of the children, so
that the last child to describe a name or to give an identifier decides, and then one for each type
that no child describes. No name gets entries of both kinds, which is why the outcome for a name can
be told without the order of the two: its type in the document, with the last identifier bound to
it.

A registration that fails has no plan to carry out.
-/

namespace TypeDictionary

namespace Plan

/-- The entry of a name with an identifier, if the name has a type. -/
def boundEntry (types : TypeSet) (origin : Nat) (pair : String × WireId) : Option Entry :=
  (types.get? pair.1).map fun type => ⟨some pair.2, pair.1, ⟨origin, type⟩⟩

/-- The entry of a type that no child describes. -/
def namedEntry (origin : Nat) (type : ResolvedType) : Entry := ⟨none, type.name, ⟨origin, type⟩⟩

/-- The entries that carrying out a plan adds, in their order. -/
def entries (plan : Plan) (origin : Nat) : List Entry :=
  plan.found.bound.filterMap (boundEntry plan.types origin) ++
    plan.unbound.map (namedEntry origin)

/-- Every entry is of the type that its name has. -/
theorem handle_of_mem_entries {plan : Plan} (indexed : plan.types.Indexed) {origin : Nat}
    {entry : Entry} (h : entry ∈ plan.entries origin) :
    ∃ type, plan.types.get? entry.name = some type ∧ entry.handle = ⟨origin, type⟩ := by
  rcases List.mem_append.mp h with hbound | hnamed
  · obtain ⟨pair, _, hentry⟩ := List.mem_filterMap.mp hbound
    unfold boundEntry at hentry
    rw [Option.map_eq_some_iff] at hentry
    obtain ⟨type, htype, rfl⟩ := hentry
    exact ⟨type, htype, rfl⟩
  · obtain ⟨type, htype, rfl⟩ := List.mem_map.mp hnamed
    have defined := (List.mem_filter.mp htype).1
    exact ⟨type, indexed.get?_eq_some_iff.mpr ⟨defined, rfl⟩, rfl⟩

/-- Registers entries one after the other. -/
def Progress.registerAll (progress : Progress) (entries : List Entry) : Progress :=
  entries.foldl (fun progress entry => progress.register entry.name entry.wireId entry.handle)
    progress

theorem registerBound_eq (progress : Progress) (types : TypeSet) (origin : Nat)
    (bound : List (String × WireId)) :
    progress.registerBound origin types bound =
      progress.registerAll (bound.filterMap (boundEntry types origin)) := by
  induction bound generalizing progress with
  | nil => rfl
  | cons pair rest ih =>
      obtain ⟨name, id⟩ := pair
      unfold Progress.registerBound
      cases htype : types.get? name with
      | none =>
          have skipped : boundEntry types origin (name, id) = none := by
            simp only [boundEntry, htype, Option.map_none]
          rw [List.filterMap_cons_none skipped]
          exact ih progress
      | some type =>
          have added : boundEntry types origin (name, id) =
              some ⟨some id, name, ⟨origin, type⟩⟩ := by
            simp only [boundEntry, htype, Option.map_some]
          rw [List.filterMap_cons_some added]
          exact ih (progress.register name (some id) ⟨origin, type⟩)

theorem registerNamed_eq (progress : Progress) (origin : Nat) (types : List ResolvedType) :
    progress.registerNamed origin types =
      progress.registerAll (types.map (namedEntry origin)) := by
  induction types generalizing progress with
  | nil => rfl
  | cons type rest ih => exact ih (progress.register type.name none ⟨origin, type⟩)

/-- Carrying out a plan registers its entries. -/
theorem carryOut_eq (plan : Plan) (origin : Nat) (registry : Registry) :
    plan.carryOut origin registry =
      (Progress.mk registry [] []).registerAll (plan.entries origin) := by
  unfold carryOut entries
  rw [registerNamed_eq, registerBound_eq]
  exact List.foldl_append.symm

theorem registry_registerAll (progress : Progress) (entries : List Entry) :
    (progress.registerAll entries).registry = progress.registry.addAll entries := by
  induction entries generalizing progress with
  | nil => rfl
  | cons entry rest ih => exact ih (progress.register entry.name entry.wireId entry.handle)

theorem registry_carryOut (plan : Plan) (origin : Nat) (registry : Registry) :
    (plan.carryOut origin registry).registry = registry.addAll (plan.entries origin) := by
  rw [carryOut_eq, registry_registerAll]

variable {plan : Plan} {origin : Nat} {name : String} {id : WireId}

/-- The types that no child describes, by name: a set holds at most one type of a name. -/
theorem findRev?_unbound (h : plan.types.Indexed) (name : String) :
    plan.unbound.findRev? (fun type => type.name = name) =
      if plan.found.bound.any fun pair => pair.1 = name then none else plan.types.get? name := by
  cases hbound : plan.found.bound.any fun pair => decide (pair.1 = name) with
  | true =>
      rw [if_pos rfl, Latest.findRev?_eq_none_iff]
      intro type htype hname
      have unbound := (List.mem_filter.mp htype).2
      rw [of_decide_eq_true hname, hbound] at unbound
      cases unbound
  | false =>
      rw [if_neg Bool.false_ne_true]
      cases hlast : plan.unbound.findRev? fun type => decide (type.name = name) with
      | none =>
          cases htype : plan.types.get? name with
          | none => rfl
          | some type =>
              obtain ⟨hmem, rfl⟩ := h.get?_eq_some_iff.mp htype
              have left : type ∈ plan.unbound := List.mem_filter.mpr ⟨hmem, by rw [hbound]; rfl⟩
              exact absurd (decide_eq_true rfl) (Latest.findRev?_eq_none_iff.mp hlast type left)
      | some type =>
          have left := Latest.mem_of_findRev?_eq_some hlast
          have hname := Latest.of_findRev?_eq_some hlast
          have found := (List.mem_filter.mp left).1
          exact (h.get?_eq_some_iff.mpr ⟨found, hname⟩).symm

/-- What a name gets from the children: its type with the last identifier bound to it. -/
theorem findRev?_boundEntries_name (types : TypeSet) (bound : List (String × WireId))
    (name : String) :
    (bound.filterMap (boundEntry types origin)).findRev? (fun entry => entry.name = name) =
      (bound.findRev? fun pair => pair.1 = name).bind fun pair =>
        (types.get? name).map fun type => ⟨some pair.2, name, ⟨origin, type⟩⟩ := by
  induction bound using List.reverseRecOn with
  | nil => rfl
  | append_singleton bound pair ih =>
      rw [List.filterMap_append, Latest.findRev?_append, ih, Latest.findRev?_concat]
      by_cases hname : pair.1 = name
      · subst hname
        cases htype : types.get? pair.1 with
        | none => simp [boundEntry, htype]
        | some type => simp [boundEntry, htype]
      · cases htype : types.get? pair.1 with
        | none => simp [boundEntry, htype, hname]
        | some type => simp [boundEntry, htype, hname]

/-- The last entry of a name has its type and the last identifier bound to it. -/
theorem findRev?_entries_name (h : plan.types.Indexed) (origin : Nat) (name : String) :
    (plan.entries origin).findRev? (fun entry => entry.name = name) =
      (plan.types.get? name).map fun type =>
        ⟨(plan.found.bound.findRev? fun pair => pair.1 = name).map Prod.snd, name,
          ⟨origin, type⟩⟩ := by
  have named : (plan.unbound.map (namedEntry origin)).findRev? (fun entry => entry.name = name) =
      (if plan.found.bound.any fun pair => pair.1 = name then none else plan.types.get? name).map
        (namedEntry origin) := by
    rw [Latest.findRev?_map]
    exact congrArg _ (findRev?_unbound h name)
  unfold entries
  rw [Latest.findRev?_append, named, findRev?_boundEntries_name, ← Latest.isSome_findRev?]
  cases plan.found.bound.findRev? fun pair => decide (pair.1 = name) with
  | none =>
      cases htype : plan.types.get? name with
      | none => rfl
      | some type =>
          obtain ⟨_, rfl⟩ := h.get?_eq_some_iff.mp htype
          rfl
  | some pair =>
      cases plan.types.get? name with
      | none => rfl
      | some type => rfl

/-- The last entry with an identifier is that of the last pair with it: every bound name has a type,
and the other entries carry no identifier. -/
theorem findRev?_entries_wireId (h : plan.types.Indexed) (defined : plan.found.Defined plan.types)
    (origin : Nat) (id : WireId) :
    (plan.entries origin).findRev? (fun entry => entry.wireId = some id) =
      (plan.found.bound.findRev? fun pair => pair.2 = id).bind
        (boundEntry plan.types origin) := by
  have named : (plan.unbound.map (namedEntry origin)).findRev?
      (fun entry => entry.wireId = some id) = none := by
    rw [Latest.findRev?_eq_none_iff]
    intro entry hentry
    obtain ⟨type, _, rfl⟩ := List.mem_map.mp hentry
    simp [namedEntry]
  unfold entries
  rw [Latest.findRev?_append, named, Latest.findRev?_filterMap, Option.none_or]
  congr 1
  apply Latest.findRev?_congr
  rintro ⟨name, own⟩ hpair
  obtain ⟨type, htype⟩ := h.contains_iff.mp (defined name own hpair)
  simp [boundEntry, htype]

/-- What carrying out a plan in a session comes to: its entries are added, and the report tells of
the overwrites that were met. -/
structure Done (plan : Plan) (session : Session) (report : Report) (after : Session) : Prop where
  report_eq : report = plan.report (plan.carryOut session.loaded session.registry).overwrites
  registry : after.registry = session.registry.addAll (plan.entries session.loaded)
  loaded : after.loaded = session.loaded + 1

namespace Done

variable {session after : Session} {report : Report}

theorem model_eq (done : plan.Done session report after) : report.model = plan.found.model := by
  rw [done.report_eq]
  rfl

theorem bound_eq (done : plan.Done session report after) : report.bound = plan.found.bound := by
  rw [done.report_eq]
  rfl

theorem nameOnly_eq (done : plan.Done session report after) :
    report.nameOnly = plan.unbound.map ResolvedType.name := by
  rw [done.report_eq]
  rfl

/-- A name of the plan answers with its type and the last identifier bound to it. -/
theorem entry?_eq (done : plan.Done session report after) (sound : plan.Sound) (name : String) :
    after.registry.entry? name =
      ((plan.types.get? name).map fun type =>
        ⟨(report.bound.findRev? fun pair => pair.1 = name).map Prod.snd, name,
          ⟨session.loaded, type⟩⟩).or (session.registry.entry? name) := by
  rw [done.registry, done.bound_eq, Registry.entry?_addAll, findRev?_entries_name sound.indexed]

/-- A bound identifier answers with the type of the last name bound to it. -/
theorem entryById?_eq (done : plan.Done session report after) (sound : plan.Sound) (id : WireId) :
    after.registry.entryById? id =
      ((report.bound.findRev? fun pair => pair.2 = id).bind
        (boundEntry plan.types session.loaded)).or (session.registry.entryById? id) := by
  rw [done.registry, done.bound_eq, Registry.entryById?_addAll,
    findRev?_entries_wireId sound.indexed sound.defined]

/-- A name that is bound last to an identifier has a type. -/
theorem exists_type_of_last (done : plan.Done session report after) (sound : plan.Sound)
    {name : String} {id other : WireId}
    (last : (report.bound.findRev? fun pair => pair.2 = id) = some (name, other)) :
    other = id ∧ ∃ type, plan.types.get? name = some type := by
  have own := Latest.of_findRev?_eq_some last
  have member := Latest.mem_of_findRev?_eq_some last
  rw [done.bound_eq] at member
  refine ⟨own, ?_⟩
  exact sound.indexed.contains_iff.mp (sound.defined name other member)

end Done

end Plan

namespace Loader

/-- A loader of a server with one dictionary. Two children of its node describe `P`: the first one
as `i=1`, the second one as given. -/
def sample (document : String) (second : Except String (List NodeId)) : Loader where
  settings := .standard
  space :=
    { document := fun _ _ => .ok (document.toList.map Char.toUInt8)
      children := fun _ _ => .ok [⟨"P", ⟨"first"⟩⟩, ⟨"P", ⟨"second"⟩⟩]
      descriptions := fun _ node => if node = ⟨"first"⟩ then .ok [⟨"i=1"⟩] else second }

/-- The second child is refused. -/
def sampleRefusing : Loader := sample "<StructuredType Name='P'/>" (.error "gone")

/-- The second child has an identifier of its own. -/
def sampleDescribing : Loader := sample "<StructuredType Name='P'/>" (.ok [⟨"i=2"⟩])

/-- A session that knows `i=1` as the identifier of an older `P`. -/
def sampleSession : Session :=
  { Session.start
      ((Registry.new true).add ⟨some ⟨"i=1"⟩, "P", ⟨0, .enumeration ⟨"P", []⟩⟩⟩) with loaded := 1 }

variable {loader : Loader} {node : NodeId} {session after : Session} {report : Report}

/-- Finding the dictionaries only asks. -/
theorem onlyTraces_discoverAction (loader : Loader) :
    Action.OnlyTraces loader.discoverAction := by
  apply Action.Composed.onlyTraces
  unfold discoverAction
  apply Action.Composed.bind (.ask _ _ _ _)
  intro children
  apply Action.Composed.bind (.tell _)
  intro _
  apply Action.Composed.bind (.tell _)
  intro _
  exact .pure _

theorem registerNode_of_plan {plan : Plan}
    (h : (loader.space.plan node).run session = (.ok plan, after)) :
    ∃ report later, loader.registerNode node session = (.ok report, later) ∧
      plan.Done session report later := by
  obtain ⟨registry, loaded⟩ := (AddressSpace.onlyTraces_plan loader.space node).kept h
  simp only [registerNode, h]
  refine ⟨_, _, rfl, ?_, ?_, ?_⟩
  · rw [registry, loaded]
  · rw [Plan.registry_carryOut, registry, loaded]
  · rw [loaded]

/-- A registration that succeeds has made a plan and carried it out. -/
theorem registerNode_eq_ok (h : loader.registerNode node session = (.ok report, after)) :
    ∃ plan middle, (loader.space.plan node).run session = (.ok plan, middle) ∧ plan.Sound ∧
      plan.Done session report after := by
  rcases hplan : (loader.space.plan node).run session with ⟨result, middle⟩
  cases result with
  | error error =>
      unfold registerNode at h
      rw [hplan] at h
      cases h
  | ok plan =>
      obtain ⟨made, later, hmade, done⟩ := registerNode_of_plan hplan
      rw [h] at hmade
      cases hmade
      exact ⟨plan, middle, rfl, AddressSpace.sound_plan hplan, done⟩

/-- A registration that fails has failed at its plan. -/
theorem registerNode_eq_error {error : LoadError}
    (h : loader.registerNode node session = (.error error, after)) :
    (loader.space.plan node).run session = (.error error, after) := by
  unfold registerNode at h
  rcases hplan : (loader.space.plan node).run session with ⟨result, middle⟩
  rw [hplan] at h
  cases result with
  | error other =>
      cases h
      rfl
  | ok plan => cases h

theorem kept_of_registerNode_error {error : LoadError}
    (h : loader.registerNode node session = (.error error, after)) :
    after.registry = session.registry ∧ after.loaded = session.loaded :=
  (AddressSpace.onlyTraces_plan loader.space node).kept (registerNode_eq_error h)

/-- A registration that fails, for whatever reason and at whichever question, leaves the registry as
it was. -/
theorem registry_of_registerNode_error {error : LoadError}
    (h : loader.registerNode node session = (.error error, after)) :
    after.registry = session.registry := by
  obtain ⟨registry, _⟩ := kept_of_registerNode_error h
  exact registry

/-- The second child is refused when the first is bound already; the older `P` stays. -/
theorem registry_of_sample_refused :
    ∃ after, sampleRefusing.registerNode ⟨"d"⟩ sampleSession =
      (.error (.refused .crossReference ⟨"second"⟩ "gone"), after) ∧
      after.registry = sampleSession.registry := by
  have failed : (sampleRefusing.registerNode ⟨"d"⟩ sampleSession).1 =
      .error (.refused .crossReference ⟨"second"⟩ "gone") := by decide +kernel
  have run := Prod.fst_eq_iff.mp failed
  exact ⟨_, run, registry_of_registerNode_error run⟩

/-- After a registration each name of the document answers with its type there and the last
identifier bound to it, and each bound identifier with the type of the last name bound to it. All
other names and identifiers answer as before. -/
theorem registry_of_registerNode_ok (h : loader.registerNode node session = (.ok report, after)) :
    ∃ model types, loader.space.Defines session node model types ∧
      (∀ name type, types.get? name = some type →
        after.registry.entry? name = some
          ⟨(report.bound.findRev? fun pair => pair.1 = name).map Prod.snd, name,
            ⟨session.loaded, type⟩⟩) ∧
      (∀ id ∈ report.bound.map Prod.snd, ∃ name type,
        report.bound.findRev? (fun pair => pair.2 = id) = some (name, id) ∧
        types.get? name = some type ∧
        after.registry.entryById? id = some ⟨some id, name, ⟨session.loaded, type⟩⟩) ∧
      (∀ name, types.get? name = none →
        after.registry.entry? name = session.registry.entry? name) ∧
      ∀ id, id ∉ report.bound.map Prod.snd →
        after.registry.entryById? id = session.registry.entryById? id := by
  obtain ⟨plan, middle, hplan, sound, done⟩ := registerNode_eq_ok h
  obtain ⟨model, answered, defines, _⟩ := AddressSpace.plan_eq_ok hplan
  refine ⟨model, plan.types, defines, ?_, ?_, ?_, ?_⟩
  · intro name type htype
    rw [done.entry?_eq sound, htype, Option.map_some, Option.some_or]
  · intro id hid
    obtain ⟨pair, hpair, rfl⟩ := List.mem_map.mp hid
    cases hlast : report.bound.findRev? fun other => decide (other.2 = pair.2) with
    | none => exact absurd (decide_eq_true rfl) (Latest.findRev?_eq_none_iff.mp hlast pair hpair)
    | some last =>
        obtain ⟨name, id⟩ := last
        obtain ⟨rfl, type, htype⟩ := done.exists_type_of_last sound hlast
        refine ⟨name, type, rfl, htype, ?_⟩
        rw [done.entryById?_eq sound, hlast, Option.bind_some, Plan.boundEntry, htype]
        rfl
  · intro name habsent
    rw [done.entry?_eq sound, habsent, Option.map_none, Option.none_or]
  · intro id hid
    have absent : report.bound.findRev? (fun pair => pair.2 = id) = none := by
      rw [Latest.findRev?_eq_none_iff]
      intro pair hpair same
      exact hid (List.mem_map.mpr ⟨pair, hpair, of_decide_eq_true same⟩)
    rw [done.entryById?_eq sound, absent, Option.bind_none, Option.none_or]

/-- Both children describe `P`: the name has the second identifier, and the first one, which meant
the older `P`, means the new one as well. -/
theorem registry_of_sample_described :
    ∃ report after types type,
      sampleDescribing.registerNode ⟨"d"⟩ sampleSession = (.ok report, after) ∧
      TypeSet.get? types "P" = some type ∧
      after.registry.entry? "P" = some ⟨some ⟨"i=2"⟩, "P", ⟨1, type⟩⟩ ∧
      after.registry.entryById? ⟨"i=1"⟩ = some ⟨some ⟨"i=1"⟩, "P", ⟨1, type⟩⟩ := by
  have bound : (sampleDescribing.registerNode ⟨"d"⟩ sampleSession).1.map Report.bound =
      .ok [("P", ⟨"i=1"⟩), ("P", ⟨"i=2"⟩)] := by decide +kernel
  obtain ⟨report, hreport, hbound⟩ := Fallible.map_eq_ok_iff.mp bound
  have run := Prod.fst_eq_iff.mp hreport
  obtain ⟨_, types, _, byName, byId, _⟩ := registry_of_registerNode_ok run
  rw [hbound] at byName byId
  obtain ⟨name, type, hlast, htype, hid⟩ := byId ⟨"i=1"⟩ (by decide)
  cases hlast
  exact ⟨report, _, types, type, run, htype, byName "P" type htype, hid⟩

end Loader

end TypeDictionary
