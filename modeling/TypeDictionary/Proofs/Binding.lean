import TypeDictionary.Proofs.Build
import TypeDictionary.Proofs.Layout
import TypeDictionary.Proofs.Overwrites

/-!
# Identifiers beside layouts

The model in a report is that of the document with identifiers bound to its records, each to the
first record of its name. Nothing else of it changes, so it resolves to the types that have been
registered. What is registered under a name is the type of its last definition. An identifier
therefore stands beside the layout that the codec uses when no other definition of the name follows,
and beside that of a definition out of use when one does.
-/

namespace TypeDictionary

namespace Definition

/-- A definition without the identifier that may have been bound to it. -/
def withoutId : Definition → Definition
  | record definition => record { definition with wireId := none }
  | enumeration definition => enumeration definition

/-- Names and wire tags of the fields that are defined; an enumeration has none. -/
def layout : Definition → List (String × WireTag)
  | record definition => definition.layout
  | enumeration _ => []

/-- The element types of the fields that are defined. -/
def references : Definition → List TypeRef
  | record definition => definition.fields.map Field.type
  | enumeration _ => []

theorem resolve_withoutId (known : KnownTypes) (set : TypeSet) (definition : Definition) :
    definition.withoutId.resolve known set = definition.resolve known set := by
  cases definition <;> rfl

/-- A type has the layout of its definition if the types that it refers to are named as asked. -/
theorem ResolvesTo.layout_eq {known : KnownTypes} {earlier : List ResolvedType}
    {definition : Definition} {type : ResolvedType} (h : definition.ResolvesTo known earlier type)
    (named : ∀ ref ∈ definition.references, known.NamedFor ref) :
    type.layout = definition.layout := by
  cases h with
  | record resolved =>
      exact Field.layout_eq_of_namedFor resolved fun field hfield =>
        named field.type (List.mem_map_of_mem hfield)
  | enumeration definition => rfl

end Definition

namespace Model

variable {name : String} {id : WireId}

/-- Identifiers make no difference to what a model resolves to. -/
theorem resolve_eq_of_withoutId {model other : Model} (known : KnownTypes)
    (same : model.definitions.map Definition.withoutId =
      other.definitions.map Definition.withoutId) :
    model.resolve known = other.resolve known := by
  have erased (set : TypeSet) (definitions : List Definition) :
      Resolution.extend known set (definitions.map Definition.withoutId) =
        Resolution.extend known set definitions := by
    induction definitions generalizing set with
    | nil => rfl
    | cons definition rest ih =>
        simp only [List.map_cons, Resolution.extend, Definition.resolve_withoutId, ih]
  rw [resolve, resolve, ← erased, same, erased]

/-- An identifier is bound to one record, the first of the name, and all else stays. -/
theorem exists_of_bindFirst? {definitions bound : List Definition}
    (h : bindFirst? name id definitions = some bound) :
    ∃ before record after, definitions = before ++ .record record :: after ∧
      record.name = name ∧ (∀ other, .record other ∈ before → other.name ≠ name) ∧
      bound = before ++ .record { record with wireId := some id } :: after := by
  induction definitions generalizing bound with
  | nil => cases h
  | cons definition rest ih =>
      cases definition with
      | record first =>
          unfold bindFirst? at h
          by_cases named : first.name = name
          · rw [if_pos named] at h
            cases h
            exact ⟨[], first, rest, rfl, named, by simp, rfl⟩
          · rw [if_neg named] at h
            obtain ⟨others, hothers, rfl⟩ := Option.map_eq_some_iff.mp h
            obtain ⟨before, record, after, rfl, hname, hbefore, rfl⟩ := ih hothers
            refine ⟨.record first :: before, record, after, rfl, hname, ?_, rfl⟩
            intro other hother
            rcases List.mem_cons.mp hother with same | hother
            · cases same
              exact named
            · exact hbefore other hother
      | enumeration first =>
          obtain ⟨others, hothers, rfl⟩ := Option.map_eq_some_iff.mp h
          obtain ⟨before, record, after, rfl, hname, hbefore, rfl⟩ := ih hothers
          refine ⟨.enumeration first :: before, record, after, rfl, hname, ?_, rfl⟩
          intro other hother
          rcases List.mem_cons.mp hother with same | hother
          · cases same
          · exact hbefore other hother

/-- Either the model has no record of a name, or its first one gets the identifier. -/
theorem bind_cases (model : Model) (name : String) (id : WireId) :
    model.bind name id = model ∨
      ∃ before record after, model.definitions = before ++ .record record :: after ∧
        record.name = name ∧ (∀ other, .record other ∈ before → other.name ≠ name) ∧
        (model.bind name id).definitions =
          before ++ .record { record with wireId := some id } :: after := by
  unfold bind bind?
  cases h : bindFirst? name id model.definitions with
  | none => exact .inl rfl
  | some bound =>
      obtain ⟨before, record, after, split, named, first, rfl⟩ := exists_of_bindFirst? h
      exact .inr ⟨before, record, after, split, named, first, rfl⟩

/-- Binding changes nothing but identifiers. -/
theorem map_withoutId_bind (model : Model) (name : String) (id : WireId) :
    (model.bind name id).definitions.map Definition.withoutId =
      model.definitions.map Definition.withoutId := by
  rcases model.bind_cases name id with same | ⟨before, record, after, split, _, _, bound⟩
  · rw [same]
  · rw [bound, split, List.map_append, List.map_append, List.map_cons, List.map_cons]
    rfl

/-- A record has the identifier that it had before, or the one that is bound to its name. -/
theorem mem_bind {model : Model} {record : RecordDef}
    (h : .record record ∈ (model.bind name id).definitions) :
    .record record ∈ model.definitions ∨ record.name = name ∧ record.wireId = some id := by
  rcases model.bind_cases name id with same | ⟨before, first, after, split, named, _, bound⟩
  · rw [same] at h
    exact .inl h
  · rw [bound] at h
    rw [split]
    rcases List.mem_append.mp h with h | h
    · exact .inl (List.mem_append_left _ h)
    · rcases List.mem_cons.mp h with same | h
      · cases same
        exact .inr ⟨named, rfl⟩
      · exact .inl (List.mem_append_right before (List.mem_cons_of_mem _ h))

end Model

namespace CrossReference

variable {model : Model} {types : TypeSet} {node : NodeId} {found : CrossReference}

/-- What the children have bound stands in the model, and nothing else is new in it. -/
structure Labels (model : Model) (found : CrossReference) : Prop where
  definitions : found.model.definitions.map Definition.withoutId =
    model.definitions.map Definition.withoutId
  bound : ∀ record id, .record record ∈ found.model.definitions → record.wireId = some id →
    (record.name, id) ∈ found.bound

theorem labels_start (unbound : ∀ record, .record record ∈ model.definitions →
    record.wireId = none) : (start model).Labels model where
  definitions := rfl
  bound := by
    intro record id hrecord labelled
    rw [unbound record hrecord] at labelled
    cases labelled

theorem Labels.add (h : found.Labels model) (child : Child) (descriptions : List NodeId) :
    (found.add types node child descriptions).1.Labels model := by
  rcases found.add_cases types node child descriptions with
    ⟨more, _, same⟩ | ⟨name, target, _, same⟩
  · rw [same]
    exact ⟨h.definitions, h.bound⟩
  · rw [same]
    constructor
    · exact (Model.map_withoutId_bind _ _ _).trans h.definitions
    · intro record id hrecord labelled
      rcases Model.mem_bind hrecord with former | ⟨named, bound⟩
      · exact List.mem_append_left _ (h.bound record id former labelled)
      · rw [bound] at labelled
        cases labelled
        rw [named]
        exact List.mem_append_right _ List.mem_cons_self

theorem Labels.gather (h : found.Labels model) (answered : List (Child × List NodeId)) :
    (found.gather types node answered).Labels model :=
  gather_keeps (Labels model) (fun _ child descriptions before => before.add child descriptions) h
    answered

end CrossReference

namespace AddressSpace

variable {space : AddressSpace} {node : NodeId} {session after : Session} {plan : Plan}

/-- The model of a plan, with the identifiers that are bound in it, resolves to the types of the
plan. -/
theorem resolve_of_plan (h : (space.plan node).run session = (.ok plan, after)) :
    plan.found.model.resolve session.registry.known = .ok plan.types ∧
      ∀ record id, .record record ∈ plan.found.model.definitions → record.wireId = some id →
        (record.name, id) ∈ plan.found.bound := by
  obtain ⟨model, answered, defines, _, _, found⟩ := plan_eq_ok h
  obtain ⟨_, root, _, _, built, resolved⟩ := defines
  have labels : plan.found.Labels model := by
    rw [found]
    exact (CrossReference.labels_start (Model.wireId_of_build built)).gather answered
  rw [Model.resolve_eq_of_withoutId _ labels.definitions]
  exact ⟨resolved, labels.bound⟩

end AddressSpace

namespace Plan.Done

variable {plan : Plan} {session after : Session} {report : Report}

/-- Under a name of the document stands its type. -/
theorem type?_eq (done : plan.Done session report after) (sound : plan.Sound) {name : String}
    {type : ResolvedType} (h : plan.types.get? name = some type) :
    after.registry.type? name = some ⟨session.loaded, type⟩ := by
  rw [Registry.type?, done.entry?_eq sound, h]
  rfl

/-- Under an identifier stands the type of the last name bound to it. -/
theorem typeById?_eq (done : plan.Done session report after) (sound : plan.Sound) {name : String}
    {id : WireId} {type : ResolvedType} (h : plan.types.get? name = some type)
    (last : (report.bound.findRev? fun pair => pair.2 = id) = some (name, id)) :
    after.registry.typeById? id = some ⟨session.loaded, type⟩ := by
  rw [Registry.typeById?, done.entryById?_eq sound, last, Option.bind_some, boundEntry, h]
  rfl

end Plan.Done

/-- Whether each identifier in the model of a report stands beside the layout that the type
registered under the name has in a registry. -/
def Report.Fits (report : Report) (registry : Registry) : Prop :=
  ∀ record id, .record record ∈ report.model.definitions → record.wireId = some id →
    ∃ handle type, registry.type? record.name = some handle ∧ handle.type = .record type ∧
      type.layout = record.layout

/-- The place of an identifier in the manifest of a model. -/
theorem Manifest.getElem?_ofModel {model : Model} {before rest : List Definition}
    {record : RecordDef} (split : model.definitions = before ++ .record record :: rest) :
    (Manifest.ofModel model).types[before.length]? =
      some (.record ⟨record.name, record.wireId,
        record.layout.map fun pair => ⟨pair.1, pair.2.display⟩⟩) := by
  rw [← record.summary_fields, Manifest.ofModel, split]
  simp [Definition.summary]

namespace Loader

variable {loader : Loader} {node : NodeId} {session after : Session} {report : Report}

/-- A manifest shows an identifier beside the layout of the record that it is bound to. The type
registered under the name is that of the last definition of the name, and so is the one under the
identifier if no other name has taken it since. Its layout is that of this definition if the known
types that the definition refers to are named as it asks, and stands beside the identifier if no
definition of the name follows the record. -/
theorem layout_beside_wireId (h : loader.registerNode node session = (.ok report, after))
    {before rest : List Definition} {record : RecordDef} {id : WireId}
    (split : report.model.definitions = before ++ .record record :: rest)
    (labelled : record.wireId = some id) :
    (record.name, id) ∈ report.bound ∧
    (Manifest.ofModel report.model).types[before.length]? =
      some (.record ⟨record.name, some id,
        record.layout.map fun pair => ⟨pair.1, pair.2.display⟩⟩) ∧
    ∃ front last back handle, report.model.definitions = front ++ last :: back ∧
      last.name = record.name ∧ (∀ later ∈ back, later.name ≠ record.name) ∧
      after.registry.type? record.name = some handle ∧
      last.ResolvesTo session.registry.known
        ((report.model.resolved session.registry.known).take front.length) handle.type ∧
      ((∀ ref ∈ last.references, session.registry.known.NamedFor ref) →
        handle.type.layout = last.layout) ∧
      ((∀ later ∈ rest, later.name ≠ record.name) → last = .record record) ∧
      ((report.bound.findRev? fun pair => pair.2 = id) = some (record.name, id) →
        after.registry.typeById? id = some handle) := by
  obtain ⟨plan, middle, hplan, sound, done⟩ := registerNode_eq_ok h
  obtain ⟨resolved, bound⟩ := AddressSpace.resolve_of_plan hplan
  rw [← done.model_eq, ← done.bound_eq] at bound
  rw [← done.model_eq] at resolved
  have complete := Resolution.complete_of_extend .empty resolved
  have member : .record record ∈ report.model.definitions := by
    rw [split]
    exact List.mem_append_right before List.mem_cons_self
  refine ⟨bound record id member labelled, ?_, ?_⟩
  · rw [Manifest.getElem?_ofModel split, labelled]
  · cases hlast : report.model.definitions.findRev? (fun other => other.name = record.name) with
    | none => exact absurd (decide_eq_true rfl) (Latest.findRev?_eq_none_iff.mp hlast _ member)
    | some last =>
        obtain ⟨named, front, back, splitLast, behind⟩ := Latest.findRev?_eq_some_iff.mp hlast
        simp only [decide_eq_true_eq] at named behind
        obtain ⟨type, htype, resolves⟩ := complete.latest splitLast (named ▸ behind)
        rw [named] at htype
        refine ⟨front, last, back, ⟨session.loaded, type⟩, splitLast, named, behind,
          done.type?_eq sound htype, resolves, resolves.layout_eq, ?_,
          done.typeById?_eq sound htype⟩
        intro alone
        have own : report.model.definitions.findRev? (fun other => other.name = record.name) =
            some (.record record) :=
          Latest.findRev?_eq_some_iff.mpr
            ⟨decide_eq_true rfl, before, rest, split, by simpa using alone⟩
        exact Option.some.inj (hlast.symm.trans own)

/-- A loader of a server with one dictionary, of the given types. A child describes `P`. -/
def sampleOf (types : String) : Loader := sample ("<d>" ++ types ++ "</d>") (.ok [])

/-- A record `P` of one field that is defined again without it. -/
def sampleRedefining : Loader :=
  sampleOf ("<StructuredType Name='P'><Field Name='a' TypeName='Byte'/></StructuredType>" ++
    "<StructuredType Name='P'/>")

theorem model_sampleRedefining :
    (sampleRedefining.registerNode ⟨"d"⟩ (.start (.new true))).1.map Report.model =
      .ok ⟨[.record ⟨⟨"P", [.scalar "a" (.primitive .byte)]⟩, some ⟨"i=1"⟩⟩,
        .record ⟨⟨"P", []⟩, none⟩]⟩ := by decide +kernel

/-- The manifest shows a field beside the identifier, and the type in use has none. -/
theorem layout_beside_wireId_sample :
    ∃ report after handle,
      sampleRedefining.registerNode ⟨"d"⟩ (.start (.new true)) = (.ok report, after) ∧
      (Manifest.ofModel report.model).types[0]? =
        some (.record ⟨"P", some ⟨"i=1"⟩, [⟨"a", "Byte"⟩]⟩) ∧
      after.registry.type? "P" = some handle ∧ handle.type.layout = [] := by
  obtain ⟨report, hreport, hmodel⟩ := Fallible.map_eq_ok_iff.mp model_sampleRedefining
  have run := Prod.fst_eq_iff.mp hreport
  have split : report.model.definitions =
      [] ++ .record ⟨⟨"P", [.scalar "a" (.primitive .byte)]⟩, some ⟨"i=1"⟩⟩ ::
        [.record ⟨⟨"P", []⟩, none⟩] := by rw [hmodel]; rfl
  obtain ⟨_, manifest, front, last, back, handle, splitLast, named, behind, found, _, layout, _⟩ :=
    layout_beside_wireId run split rfl
  refine ⟨report, _, handle, run, manifest, found, ?_⟩
  rw [split] at splitLast
  rcases front with _ | ⟨first, _ | ⟨second, front⟩⟩
  · cases splitLast
    exact absurd rfl (behind _ List.mem_cons_self)
  · cases splitLast
    exact layout (by simp [Definition.references])
  · simp at splitLast

/-- A record and an enumeration `P`. -/
def sampleRetyping : Loader := sampleOf "<StructuredType Name='P'/><EnumeratedType Name='P'/>"

/-- A record `P` that refers to `Q`. -/
def sampleReferring : Loader :=
  sampleOf "<StructuredType Name='P'><Field Name='a' TypeName='Q'/></StructuredType>"

/-- A session that knows a type `R` under the name `Q`. -/
def sampleAlias : Session :=
  .start ((Registry.new true).add ⟨none, "Q", ⟨0, .enumeration ⟨"R", []⟩⟩⟩)

/-- A report does not fit if its first record has an identifier and another layout than the type
that has been registered. -/
theorem exists_not_fits {record : RecordDef} {rest : List Definition} {id : WireId}
    {handle : Handle}
    (model : (loader.registerNode node session).1.map Report.model =
      .ok ⟨.record record :: rest⟩)
    (labelled : record.wireId = some id)
    (found : (loader.registerNode node session).2.registry.type? record.name = some handle)
    (apart : handle.type.record?.map Record.layout ≠ some record.layout) :
    ∃ report after, loader.registerNode node session = (.ok report, after) ∧
      ¬report.Fits after.registry := by
  obtain ⟨report, hreport, hmodel⟩ := Fallible.map_eq_ok_iff.mp model
  refine ⟨report, _, Prod.fst_eq_iff.mp hreport, ?_⟩
  intro fits
  obtain ⟨other, type, hother, same, layout⟩ := fits record id (by rw [hmodel]; simp) labelled
  rw [found, Option.some.injEq] at hother
  subst hother
  rw [same] at apart
  exact apart (congrArg some layout)

/-- So it is not true that identifiers stand beside the layouts in use: a record may be defined
again, as a record or as an enumeration, and what it refers to may be known under another name. -/
theorem layout_beside_wireId_differs :
    (∃ report after,
      sampleRedefining.registerNode ⟨"d"⟩ (.start (.new true)) = (.ok report, after) ∧
        ¬report.Fits after.registry) ∧
    (∃ report after,
      sampleRetyping.registerNode ⟨"d"⟩ (.start (.new true)) = (.ok report, after) ∧
        ¬report.Fits after.registry) ∧
    ∃ report after,
      sampleReferring.registerNode ⟨"d"⟩ sampleAlias = (.ok report, after) ∧
        ¬report.Fits after.registry := by
  refine ⟨?_, ?_, ?_⟩
  · have found : (sampleRedefining.registerNode ⟨"d"⟩ (.start (.new true))).2.registry.type? "P" =
        some ⟨0, .record ⟨"P", []⟩⟩ := by decide +kernel
    exact exists_not_fits model_sampleRedefining rfl found (by decide)
  · have model : (sampleRetyping.registerNode ⟨"d"⟩ (.start (.new true))).1.map Report.model =
        .ok ⟨[.record ⟨⟨"P", []⟩, some ⟨"i=1"⟩⟩, .enumeration ⟨"P", []⟩]⟩ := by decide +kernel
    have found : (sampleRetyping.registerNode ⟨"d"⟩ (.start (.new true))).2.registry.type? "P" =
        some ⟨0, .enumeration ⟨"P", []⟩⟩ := by decide +kernel
    exact exists_not_fits model rfl found (by decide)
  · have model : (sampleReferring.registerNode ⟨"d"⟩ sampleAlias).1.map Report.model =
        .ok ⟨[.record ⟨⟨"P", [.scalar "a" (.named "Q")]⟩, some ⟨"i=1"⟩⟩]⟩ := by decide +kernel
    have found : (sampleReferring.registerNode ⟨"d"⟩ sampleAlias).2.registry.type? "P" =
        some ⟨0, .record ⟨"P", [⟨"a", .enumeration ⟨"R", []⟩, false, .instanceOf "Q"⟩]⟩⟩ := by
      decide +kernel
    exact exists_not_fits model rfl found (by decide)

end Loader

end TypeDictionary
