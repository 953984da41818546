import TypeDictionary.Proofs.Registration

/-!
# What a report says of the registry

A report lists the names registered with an identifier in the order of the children, and then those
registered without. Together they are the names of the document. A name stands in one list only, but
in the first one as often as children describe it: a child is not told that its name has been bound
already. Each time counts as a registration. The report answers with the first identifier of such a
name and the registry with the last.

An identifier that children give to several names means the last of them, so what it answers is what
a name answers only if no other name has taken the identifier since.
-/

namespace TypeDictionary

/-- What an entry is registered under: its name, and its identifier if it has one. -/
def Entry.registration (entry : Entry) : String × Option WireId := (entry.name, entry.wireId)

namespace Report

/-- The names registered with an identifier, once for each time. -/
def boundNames (report : Report) : List String := report.bound.map Prod.fst

/-- The registrations in their order: names with an identifier, and then names without. -/
def registrations (report : Report) : List (String × Option WireId) :=
  report.bound.map (fun pair => (pair.1, some pair.2)) ++
    report.nameOnly.map fun name => (name, none)

theorem length_registrations (report : Report) :
    report.registrations.length = report.registered := by
  unfold registrations registered
  rw [List.length_append, List.length_map, List.length_map]

theorem wireId?_eq_find? (report : Report) (name : String) :
    report.wireId? name = (report.bound.find? fun pair => pair.1 = name).map Prod.snd := by
  unfold wireId?
  induction report.bound with
  | nil => rfl
  | cons pair rest ih =>
      obtain ⟨bound, id⟩ := pair
      by_cases same : bound = name
      · simp [same]
      · simp [List.lookup_cons, same, beq_eq_false_iff_ne.2 (Ne.symm same), ih]

end Report

namespace Plan

variable {plan : Plan}

/-- What is left for registration by name: the names of the document that no child describes. -/
theorem mem_unbound_names_iff (h : plan.types.Indexed) {name : String} :
    name ∈ plan.unbound.map ResolvedType.name ↔
      plan.types.contains name = true ∧ name ∉ plan.found.bound.map Prod.fst := by
  rw [h.contains_iff, ← h.mem_names_iff]
  simp only [unbound, TypeSet.names, List.mem_map, List.mem_filter, Bool.not_eq_true',
    List.any_eq_false, decide_eq_true_eq]
  constructor
  · rintro ⟨type, ⟨htype, free⟩, rfl⟩
    refine ⟨⟨type, htype, rfl⟩, ?_⟩
    rintro ⟨pair, hpair, same⟩
    exact free pair hpair same
  · rintro ⟨⟨type, htype, rfl⟩, free⟩
    exact ⟨type, ⟨htype, fun pair hpair same => free ⟨pair, hpair, same⟩⟩, rfl⟩

theorem nodup_unbound_names (h : plan.types.Indexed) :
    (plan.unbound.map ResolvedType.name).Nodup :=
  h.nodup_names.sublist (List.filter_sublist.map ResolvedType.name)

/-- Carrying out a plan adds one entry for each bound name, which all have types, with its
identifier, and one without for each name left over. -/
theorem map_registration_entries (sound : plan.Sound) (origin : Nat) :
    (plan.entries origin).map Entry.registration =
      plan.found.bound.map (fun pair => (pair.1, some pair.2)) ++
        (plan.unbound.map ResolvedType.name).map fun name => (name, none) := by
  have bound (pairs : List (String × WireId)) (hpairs : ∀ pair ∈ pairs, pair ∈ plan.found.bound) :
      (pairs.filterMap (boundEntry plan.types origin)).map Entry.registration =
        pairs.map fun pair => (pair.1, some pair.2) := by
    induction pairs with
    | nil => rfl
    | cons pair rest ih =>
        rw [List.forall_mem_cons] at hpairs
        obtain ⟨type, htype⟩ := sound.indexed.contains_iff.mp
          (sound.defined pair.1 pair.2 hpairs.1)
        have added : boundEntry plan.types origin pair =
            some ⟨some pair.2, pair.1, ⟨origin, type⟩⟩ := by
          rw [boundEntry, htype, Option.map_some]
        rw [List.filterMap_cons_some added, List.map_cons, List.map_cons, ih hpairs.2]
        rfl
  unfold entries
  rw [List.map_append, bound _ fun _ hpair => hpair, List.map_map, List.map_map]
  rfl

theorem map_name_entries (sound : plan.Sound) (origin : Nat) :
    (plan.entries origin).map Entry.name =
      plan.found.bound.map Prod.fst ++ plan.unbound.map ResolvedType.name := by
  have registrations := congrArg (List.map Prod.fst) (map_registration_entries sound origin)
  simpa [Function.comp_def, Entry.registration] using registrations

end Plan

namespace Loader

variable {loader : Loader} {node : NodeId} {session after : Session} {report : Report}

/-- Every name of a document is registered, with an identifier or without, and never both ways. No
name is registered twice without one, so each is registered once exactly if no name is bound twice.
The report answers with the first identifier of a name and the registry with the last, which are the
same if no name is bound twice. -/
theorem registrations_of_report (h : loader.registerNode node session = (.ok report, after)) :
    ∃ model types entries, loader.space.Defines session node model types ∧
      after.registry = session.registry.addAll entries ∧
      entries.map Entry.name = report.boundNames ++ report.nameOnly ∧
      (∀ name, types.contains name = true ↔ name ∈ entries.map Entry.name) ∧
      (∀ name ∈ report.nameOnly, name ∉ report.boundNames) ∧
      ((entries.map Entry.name).Nodup ↔ report.boundNames.Nodup) ∧
      (∀ name, types.contains name = true →
        report.wireId? name = (report.bound.find? fun pair => pair.1 = name).map Prod.snd ∧
        (after.registry.entry? name).map Entry.wireId =
          some ((report.bound.findRev? fun pair => pair.1 = name).map Prod.snd)) ∧
      (report.boundNames.Nodup → ∀ name, types.contains name = true →
        (after.registry.entry? name).map Entry.wireId = some (report.wireId? name)) := by
  obtain ⟨plan, middle, hplan, sound, done⟩ := registerNode_eq_ok h
  obtain ⟨model, answered, defines, _⟩ := AddressSpace.plan_eq_ok hplan
  have names := Plan.map_name_entries sound session.loaded
  rw [← done.bound_eq, ← done.nameOnly_eq, ← Report.boundNames] at names
  have left (name : String) : name ∈ report.nameOnly ↔
      plan.types.contains name = true ∧ name ∉ report.boundNames := by
    rw [done.nameOnly_eq, Plan.mem_unbound_names_iff sound.indexed, Report.boundNames,
      done.bound_eq]
  have wireIds (name : String) (hname : plan.types.contains name = true) :
      (after.registry.entry? name).map Entry.wireId =
        some ((report.bound.findRev? fun pair => pair.1 = name).map Prod.snd) := by
    obtain ⟨type, htype⟩ := sound.indexed.contains_iff.mp hname
    rw [done.entry?_eq sound, htype, Option.map_some, Option.some_or, Option.map_some]
  refine ⟨model, plan.types, plan.entries session.loaded, defines, done.registry, names, ?_, ?_, ?_,
    ?_, ?_⟩
  · intro name
    rw [names, List.mem_append, left]
    by_cases hbound : name ∈ report.boundNames
    · obtain ⟨pair, hpair, rfl⟩ := List.mem_map.mp hbound
      rw [done.bound_eq] at hpair
      exact ⟨fun _ => .inl hbound, fun _ => sound.defined pair.1 pair.2 hpair⟩
    · simp [hbound]
  · intro name hname
    exact ((left name).mp hname).2
  · have once : report.nameOnly.Nodup := by
      rw [done.nameOnly_eq]
      exact Plan.nodup_unbound_names sound.indexed
    rw [names, List.nodup_append]
    constructor
    · exact And.left
    · intro distinct
      refine ⟨distinct, once, ?_⟩
      rintro name hname _ hleft rfl
      exact ((left name).mp hleft).2 hname
  · intro name hname
    exact ⟨report.wireId?_eq_find? name, wireIds name hname⟩
  · intro distinct name hname
    rw [wireIds name hname, Report.wireId?_eq_find?, Latest.find?_eq_findRev?_of_nodup distinct]

theorem bound_sampleDescribing :
    (sampleDescribing.registerNode ⟨"d"⟩ sampleSession).1.map Report.bound =
      .ok [("P", ⟨"i=1"⟩), ("P", ⟨"i=2"⟩)] := by decide +kernel

/-- Two children describe `P`, so it is registered twice. The report tells of the first identifier,
and the registry has the second. -/
theorem registrations_of_repeated_name :
    ∃ report after, sampleDescribing.registerNode ⟨"d"⟩ sampleSession = (.ok report, after) ∧
      report.boundNames = ["P", "P"] ∧ report.wireId? "P" = some ⟨"i=1"⟩ ∧
      (after.registry.entry? "P").map Entry.wireId = some (some ⟨"i=2"⟩) := by
  obtain ⟨report, hreport, hbound⟩ := Fallible.map_eq_ok_iff.mp bound_sampleDescribing
  have run := Prod.fst_eq_iff.mp hreport
  have names : report.boundNames = ["P", "P"] := by rw [Report.boundNames, hbound]; rfl
  obtain ⟨_, types, entries, _, _, hentries, contained, _, _, wireIds, _⟩ :=
    registrations_of_report run
  have hname : types.contains "P" = true := by
    rw [contained, hentries, names]
    exact List.mem_append_left _ List.mem_cons_self
  obtain ⟨first, last⟩ := wireIds "P" hname
  rw [hbound] at first last
  exact ⟨report, _, run, names, first, last⟩

/-- So it is not true that a type is registered once, nor that report and registry agree on its
identifier. -/
theorem repeated_name_registered_twice :
    ∃ report after, sampleDescribing.registerNode ⟨"d"⟩ sampleSession = (.ok report, after) ∧
      ¬report.boundNames.Nodup ∧
      ¬∀ name ∈ report.boundNames,
        (after.registry.entry? name).map Entry.wireId = some (report.wireId? name) := by
  have entry : ((sampleDescribing.registerNode ⟨"d"⟩ sampleSession).2.registry.entry? "P").map
      Entry.wireId = some (some ⟨"i=2"⟩) := by decide +kernel
  obtain ⟨report, hreport, hbound⟩ := Fallible.map_eq_ok_iff.mp bound_sampleDescribing
  refine ⟨report, _, Prod.fst_eq_iff.mp hreport, ?_, ?_⟩
  · rw [Report.boundNames, hbound]
    decide
  · intro agree
    have same := agree "P" (by rw [Report.boundNames, hbound]; decide)
    rw [entry, Report.wireId?, hbound] at same
    exact absurd same (by decide)

/-- An identifier and a name that were registered together both answer with a type. It is the same
one exactly if no other name has been registered with the identifier since. -/
theorem lookups_of_bound (h : loader.registerNode node session = (.ok report, after))
    {name : String} {id : WireId} (bound : (name, id) ∈ report.bound) :
    ∃ byId byName, after.registry.typeById? id = some byId ∧
      after.registry.type? name = some byName ∧
      (byId.same byName = true ↔
        (report.bound.findRev? fun pair => pair.2 = id) = some (name, id)) := by
  obtain ⟨plan, middle, hplan, sound, done⟩ := registerNode_eq_ok h
  rw [done.bound_eq] at bound
  obtain ⟨type, htype⟩ := sound.indexed.contains_iff.mp (sound.defined name id bound)
  rw [← done.bound_eq] at bound
  cases hlast : report.bound.findRev? fun pair => decide (pair.2 = id) with
  | none => exact absurd (decide_eq_true rfl) (Latest.findRev?_eq_none_iff.mp hlast _ bound)
  | some last =>
      obtain ⟨other, _⟩ := last
      obtain ⟨rfl, otherType, hother⟩ := done.exists_type_of_last sound hlast
      refine ⟨⟨session.loaded, otherType⟩, ⟨session.loaded, type⟩, ?_, ?_, ?_⟩
      · rw [Registry.typeById?, done.entryById?_eq sound, hlast]
        simp [Plan.boundEntry, hother]
      · rw [Registry.type?, done.entry?_eq sound, htype]
        rfl
      · have named := (sound.indexed.get?_eq_some_iff.mp htype).2
        have otherNamed := (sound.indexed.get?_eq_some_iff.mp hother).2
        simp [Handle.same, named, otherNamed]

/-- A loader of a server with one dictionary of two types. Two children describe them, both as
`i=1`. -/
def sampleSharing : Loader where
  settings := .standard
  space :=
    { sampleDescribing.space with
      document := fun _ _ =>
        .ok ("<d><StructuredType Name='P'/><StructuredType Name='Q'/></d>".toList.map Char.toUInt8)
      children := fun _ _ => .ok [⟨"P", ⟨"first"⟩⟩, ⟨"Q", ⟨"second"⟩⟩]
      descriptions := fun _ _ => .ok [⟨"i=1"⟩] }

theorem bound_sampleSharing :
    (sampleSharing.registerNode ⟨"d"⟩ sampleSession).1.map Report.bound =
      .ok [("P", ⟨"i=1"⟩), ("Q", ⟨"i=1"⟩)] := by decide +kernel

/-- The first name has lost its identifier to the second, which was registered with it later. -/
theorem lookups_of_shared_identifier :
    ∃ report after, sampleSharing.registerNode ⟨"d"⟩ sampleSession = (.ok report, after) ∧
      report.bound = [("P", ⟨"i=1"⟩), ("Q", ⟨"i=1"⟩)] ∧
      (∃ byId byName, after.registry.typeById? ⟨"i=1"⟩ = some byId ∧
        after.registry.type? "P" = some byName ∧ byId.same byName = false) ∧
      ∃ byId byName, after.registry.typeById? ⟨"i=1"⟩ = some byId ∧
        after.registry.type? "Q" = some byName ∧ byId.same byName = true := by
  obtain ⟨report, hreport, hbound⟩ := Fallible.map_eq_ok_iff.mp bound_sampleSharing
  have run := Prod.fst_eq_iff.mp hreport
  refine ⟨report, _, run, hbound, ?_, ?_⟩
  · have first : ("P", ⟨"i=1"⟩) ∈ report.bound := by rw [hbound]; decide
    obtain ⟨byId, byName, hid, hname, same⟩ := lookups_of_bound run first
    rw [hbound] at same
    exact ⟨byId, byName, hid, hname, Bool.eq_false_iff.mpr (mt same.mp (by decide))⟩
  · have second : ("Q", ⟨"i=1"⟩) ∈ report.bound := by rw [hbound]; decide
    obtain ⟨byId, byName, hid, hname, same⟩ := lookups_of_bound run second
    rw [hbound] at same
    exact ⟨byId, byName, hid, hname, same.mpr (by decide)⟩

/-- So it is not true that all names and identifiers bound together answer with the same type. -/
theorem shared_identifier_lookups_differ :
    ∃ report after, sampleSharing.registerNode ⟨"d"⟩ sampleSession = (.ok report, after) ∧
      ¬∀ name id, (name, id) ∈ report.bound →
        ∃ byId byName, after.registry.typeById? id = some byId ∧
          after.registry.type? name = some byName ∧ byId.same byName = true := by
  have byId : (sampleSharing.registerNode ⟨"d"⟩ sampleSession).2.registry.typeById? ⟨"i=1"⟩ =
      some ⟨1, .record ⟨"Q", []⟩⟩ := by decide +kernel
  have byName : (sampleSharing.registerNode ⟨"d"⟩ sampleSession).2.registry.type? "P" =
      some ⟨1, .record ⟨"P", []⟩⟩ := by decide +kernel
  obtain ⟨report, hreport, hbound⟩ := Fallible.map_eq_ok_iff.mp bound_sampleSharing
  refine ⟨report, _, Prod.fst_eq_iff.mp hreport, ?_⟩
  intro agree
  obtain ⟨_, _, hid, hname, same⟩ := agree "P" ⟨"i=1"⟩ (by rw [hbound]; decide)
  rw [byId] at hid
  rw [byName] at hname
  cases hid
  cases hname
  exact absurd same (by decide)

end Loader

end TypeDictionary
