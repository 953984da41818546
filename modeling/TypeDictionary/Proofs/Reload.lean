import TypeDictionary.Proofs.Alike

/-!
# Registering a document again

When a document is registered again, the registry knows its types already. A reference to one of
them now means something wherever it stands, and what it means may have changed for those that stand
in front of the definition: they meant something else the first time. `Model.RefersBack` leaves such
references out. All others mean the same in both runs, since they are found among the types of the
document made so far, or under names that the registration has not touched. So the same types are
made, and registering them changes nothing but which resolution has made them.
-/

namespace TypeDictionary

/-- Whether the references of a model to names that it defines all stand behind a definition of the
name. -/
def Model.RefersBack (model : Model) : Prop :=
  ∀ before record after, model.definitions = before ++ .record record :: after →
    ∀ field ∈ record.fields, ∀ name, field.type = .named name →
      name ∈ model.definitions.map Definition.name → name ∈ before.map Definition.name

/-- Known types that do not differ in a name, or do not matter for it, since it is defined. -/
def KnownTypes.AgreeOn (known other : KnownTypes) (earlier : List String) (name : String) : Prop :=
  name ∈ earlier ∨ known name = other name

/-- Known types that agree on all references of some definitions, each where it stands; `earlier`
are the names defined before. -/
def KnownTypes.AgreeFor (known other : KnownTypes) (earlier : List String)
    (definitions : List Definition) : Prop :=
  ∀ before record after, definitions = before ++ .record record :: after →
    ∀ field ∈ record.fields, ∀ name, field.type = .named name →
      known.AgreeOn other (earlier ++ before.map Definition.name) name

variable {known other : KnownTypes} {earlier : List String} {set : TypeSet}
  {types : List ResolvedType}

namespace KnownTypes.AgreeFor

variable {definition : Definition} {rest : List Definition}

theorem head {record : RecordDef} (h : known.AgreeFor other earlier (.record record :: rest)) :
    ∀ field ∈ record.fields, ∀ name, field.type = .named name →
      known.AgreeOn other earlier name := by
  simpa using h [] record rest rfl

theorem tail (h : known.AgreeFor other earlier (definition :: rest)) :
    known.AgreeFor other (earlier ++ [definition.name]) rest := by
  rintro before record after rfl
  simpa using h (definition :: before) record after rfl

end KnownTypes.AgreeFor

/-- What known types agree on means the same with either. -/
theorem TypeRef.resolve?_congr (reflects : set.Reflects types) {ref : TypeRef}
    (agree : ∀ name, ref = .named name →
      known.AgreeOn other (types.map ResolvedType.name) name) :
    ref.resolve? known set = ref.resolve? other set := by
  cases ref with
  | primitive kind => rfl
  | named name =>
      rcases agree name rfl with defined | same
      · obtain ⟨type, htype, named⟩ := List.mem_map.mp defined
        cases found : set.get? name with
        | some defined => rw [resolve?_of_get? found, resolve?_of_get? found]
        | none => exact absurd named (reflects.get?_eq_none_iff.mp found type htype)
      · simp only [resolve?, same]

theorem Field.resolveAll_congr (reflects : set.Reflects types) (record : String)
    {fields : List (Field TypeRef)}
    (agree : ∀ field ∈ fields, ∀ name, field.type = .named name →
      known.AgreeOn other (types.map ResolvedType.name) name) :
    resolveAll known set record fields = resolveAll other set record fields := by
  induction fields with
  | nil => rfl
  | cons field rest ih =>
      rw [List.forall_mem_cons] at agree
      have same : field.resolve known set record = field.resolve other set record := by
        rw [resolve, resolve, TypeRef.resolve?_congr reflects agree.1]
      rw [resolveAll, resolveAll, same, ih agree.2]

/-- Definitions come to the same with known types that agree on their references. -/
theorem Resolution.extend_congr (reflects : set.Reflects types) {definitions : List Definition}
    (agree : known.AgreeFor other (types.map ResolvedType.name) definitions) :
    extend known set definitions = extend other set definitions := by
  induction definitions generalizing set types with
  | nil => rfl
  | cons definition rest ih =>
      have same : definition.resolve known set = definition.resolve other set := by
        cases definition with
        | record record =>
            rw [Definition.resolve, Definition.resolve,
              Field.resolveAll_congr reflects record.name agree.head]
        | enumeration definition => rfl
      rw [extend, extend, same]
      cases made : definition.resolve other set with
      | error error => rfl
      | ok type =>
          have named := ((Definition.resolve_eq_ok_iff reflects).mp made).name_eq
          exact ih (reflects.insert type) (by simpa [named] using agree.tail)

/-- A model whose references all stand behind their definitions does not depend on what is known
under the names that it defines. -/
theorem Model.RefersBack.resolve_eq {model : Model} (h : model.RefersBack)
    (agree : ∀ name, name ∉ model.definitions.map Definition.name → known name = other name) :
    model.resolve known = model.resolve other := by
  apply Resolution.extend_congr .empty
  intro before record after split field hfield name named
  by_cases own : name ∈ model.definitions.map Definition.name
  · exact .inl (by simpa using h before record after split field hfield name named own)
  · exact .inr (agree name own)

/-- Carrying out a plan registers names only that its model defines. -/
theorem Plan.name_mem_of_mem_entries {plan : Plan} {model : Model}
    (resolved : model.resolve known = .ok plan.types) {origin : Nat} {entry : Entry}
    (h : entry ∈ plan.entries origin) : entry.name ∈ model.definitions.map Definition.name := by
  have complete := Resolution.complete_of_extend .empty resolved
  obtain ⟨type, htype, _⟩ := handle_of_mem_entries complete.reflects.indexed h
  obtain ⟨named, before, after, split, _⟩ := complete.reflects.get?_eq_some_iff.mp htype
  rw [List.nil_append] at split
  rw [← complete.names_eq, split, ← named]
  exact List.mem_map_of_mem (List.mem_append_right before List.mem_cons_self)

namespace Registry

variable {registry : Registry} {entries again : List Entry}

/-- Entries that are added once more are all overwrites. -/
theorem overwrites_again (same : again.map Entry.content = entries.map Entry.content) :
    List.Forall₂ (fun registration anomaly =>
        ∃ previous, anomaly = .overwrite registration.1 previous registration.2)
      (again.map Entry.registration) ((registry.addAll entries).overwrites again) := by
  have names : again.map Entry.name = entries.map Entry.name := by
    have contents := congrArg (List.map fun content => content.2.1) same
    rw [List.map_map, List.map_map] at contents
    exact contents
  rw [List.forall₂_map_left_iff]
  apply overwrites_of_known
  intro entry hentry
  have known : entry.name ∈ entries.map Entry.name := names ▸ List.mem_map_of_mem hentry
  obtain ⟨former, hformer, named⟩ := List.mem_map.mp known
  have found : (entries.any fun former => former.name = entry.name) = true :=
    List.any_eq_true.mpr ⟨former, hformer, decide_eq_true named⟩
  rw [← Latest.isSome_findRev?] at found
  rw [entry?_addAll, ← Option.isSome_iff_ne_none, Option.isSome_or, found, Bool.true_or]

end Registry

namespace Loader

variable {loader : Loader} {node : NodeId} {session after : Session} {report : Report}

/-- With a stateless server a node can be registered again after it has been, if the references of
its model to its own types all stand behind their definitions. The registry answers as before but
for what made the types, and the second report differs from the first in its overwrites only: it
tells of one for each registration. -/
theorem registerNode_twice (stateless : loader.space.IsStateless)
    (refersBack : ∀ model, loader.space.Serves node model → model.RefersBack)
    (h : loader.registerNode node session = (.ok report, after)) :
    ∃ again later, loader.registerNode node after = (.ok again, later) ∧
      later.registry.Alike after.registry ∧
      again.bound = report.bound ∧ again.nameOnly = report.nameOnly ∧
      again.mismatches = report.mismatches ∧
      List.Forall₂ (fun registration anomaly =>
          ∃ previous, anomaly = .overwrite registration.1 previous registration.2)
        again.registrations again.overwrites := by
  obtain ⟨plan, middle, hplan, sound, done⟩ := registerNode_eq_ok h
  obtain ⟨model, _, serves, _, resolved, _⟩ :=
    (AddressSpace.exists_plan_iff stateless).mp ⟨middle, hplan⟩
  -- The model resolves to the same although its own types are known now.
  have same : model.resolve after.registry.known = model.resolve session.registry.known := by
    apply (refersBack model serves).resolve_eq
    intro name foreign
    rw [done.registry]
    apply Registry.known_addAll_of_absent
    rintro entry hentry rfl
    exact foreign (Plan.name_mem_of_mem_entries resolved hentry)
  obtain ⟨_, hplanAgain⟩ := AddressSpace.exists_plan_of_resolve_eq stateless hplan
    fun other serves' => serves.unique serves' ▸ same
  obtain ⟨again, later, hagain, doneAgain⟩ := registerNode_of_plan hplanAgain
  have contents := plan.map_content_entries after.loaded session.loaded
  refine ⟨again, later, hagain, ?_, ?_, ?_, ?_, ?_⟩
  · rw [doneAgain.registry, done.registry]
    exact Registry.alike_addAll_again session.registry contents
  · rw [doneAgain.bound_eq, done.bound_eq]
  · rw [doneAgain.nameOnly_eq, done.nameOnly_eq]
  · rw [doneAgain.mismatches_eq sound, done.mismatches_eq sound]
  · rw [doneAgain.registrations_eq sound, doneAgain.overwrites_eq sound, done.registry]
    exact Registry.overwrites_again contents

/-- A loader of a server with a dictionary that defines `P` twice, the second time as a record that
holds the first. Two children describe it. -/
def sampleRepeating : Loader :=
  sample ("<d><StructuredType Name='P'/><StructuredType Name='P'>" ++
    "<Field Name='old' TypeName='P'/></StructuredType></d>") (.ok [⟨"i=2"⟩])

theorem refersBack_sampleRepeating (model : Model)
    (serves : sampleRepeating.space.Serves ⟨"d"⟩ model) : model.RefersBack := by
  obtain ⟨bytes, root, hbytes, hroot, hmodel⟩ := serves.document
  have built : ((sampleRepeating.space.document [] ⟨"d"⟩).toOption.bind fun bytes =>
      (Source.bytes bytes).read.toOption.bind fun root => (Model.build root).toOption) =
      some ⟨[.record ⟨⟨"P", []⟩, none⟩,
        .record ⟨⟨"P", [.scalar "old" (.named "P")]⟩, none⟩]⟩ := by decide +kernel
  simp only [hbytes, hroot, hmodel, Except.toOption, Option.bind_some, Option.some.injEq] at built
  subst built
  intro before record after split field hfield name _ own
  rcases before with _ | ⟨first, _ | ⟨second, before⟩⟩
  · cases split
    cases hfield
  · cases split
    simpa [Definition.name] using own
  · simp at split

/-- The second `P` keeps the first for its field, also when both are made again, and is registered
over itself twice. -/
theorem registerNode_twice_sample :
    ∃ report after again later,
      sampleRepeating.registerNode ⟨"d"⟩ (.start (.new true)) = (.ok report, after) ∧
      sampleRepeating.registerNode ⟨"d"⟩ after = (.ok again, later) ∧
      later.registry.Alike after.registry ∧ again.bound = report.bound ∧
      report.overwrites.length = 1 ∧ again.overwrites.length = 2 := by
  have stateless : sampleRepeating.space.IsStateless :=
    ⟨fun _ _ _ => rfl, fun _ _ _ => rfl, fun _ _ _ => rfl⟩
  have first : (sampleRepeating.registerNode ⟨"d"⟩ (.start (.new true))).1.map
      (fun report => (report.registrations.length, report.overwrites.length)) = .ok (2, 1) := by
    decide +kernel
  obtain ⟨report, hreport, hcounts⟩ := Fallible.map_eq_ok_iff.mp first
  have run := Prod.fst_eq_iff.mp hreport
  obtain ⟨again, later, hagain, alike, bound, nameOnly, _, overwrites⟩ :=
    registerNode_twice stateless refersBack_sampleRepeating run
  have counted := overwrites.length_eq
  have listed : again.registrations = report.registrations := by
    rw [Report.registrations, Report.registrations, bound, nameOnly]
  rw [Prod.mk.injEq] at hcounts
  rw [listed, hcounts.1] at counted
  exact ⟨report, _, again, later, run, hagain, alike, bound, hcounts.2, counted.symm⟩

end Loader

end TypeDictionary
