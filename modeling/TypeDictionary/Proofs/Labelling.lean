import Mathlib.Logic.Function.Basic
import TypeDictionary.Proofs.Binding
import TypeDictionary.Proofs.FirstFault

/-!
# The model of a report

The children of a node bind identifiers one after the other, each to the first record of a name. In
between, `Model.Labelled` holds: the first record of each name has the identifier that the name
stands for by now, and all other records have none. One more bound name changes what that name
stands for and nothing else, so in the end the last identifier bound to a name is the one that its
first record has.
-/

namespace TypeDictionary

/-- The name of the record that is defined, if it is a record. -/
def Definition.recordName? : Definition → Option String
  | record definition => some definition.name
  | enumeration _ => none

/-- Definitions without identifiers have none to lose. -/
theorem Definition.map_withoutId_of_unlabelled {definitions : List Definition}
    (unlabelled : ∀ record, .record record ∈ definitions → record.wireId = none) :
    definitions.map withoutId = definitions := by
  have kept : ∀ definition ∈ definitions, definition.withoutId = id definition := by
    intro definition member
    cases definition with
    | record definition => rw [withoutId, ← unlabelled definition member, id]
    | enumeration definition => rfl
  rw [List.map_congr_left kept, List.map_id]

/-- The last identifier bound to a name. -/
def lastBound (bound : List (String × WireId)) (name : String) : Option WireId :=
  (bound.findRev? fun pair => pair.1 = name).map Prod.snd

theorem lastBound_concat (bound : List (String × WireId)) (name : String) (id : WireId) :
    lastBound (bound ++ [(name, id)]) = Function.update (lastBound bound) name (some id) := by
  funext other
  rw [lastBound, Latest.findRev?_concat]
  by_cases same : other = name
  · subst same
    simp
  · rw [Function.update_of_ne same, if_neg (by simpa using fun h => same h.symm), lastBound]

namespace Model

variable {ids : String → Option WireId} {definitions bound before after : List Definition}
  {record : RecordDef} {name : String} {id : WireId}

/-- The names of the records among some definitions. -/
def recordNames (definitions : List Definition) : List String :=
  definitions.filterMap Definition.recordName?

/-- Whether the first record of each name has the identifier that the name stands for, and every
other record none. -/
def Labelled (ids : String → Option WireId) (definitions : List Definition) : Prop :=
  ∀ before record after, definitions = before ++ .record record :: after →
    record.wireId = if record.name ∈ recordNames before then none else ids record.name

theorem mem_recordNames_iff :
    name ∈ recordNames definitions ↔
      ∃ record, .record record ∈ definitions ∧ record.name = name := by
  rw [recordNames, List.mem_filterMap]
  constructor
  · rintro ⟨record | enumeration, member, named⟩
    · exact ⟨record, member, Option.some.inj named⟩
    · cases named
  · rintro ⟨record, member, rfl⟩
    exact ⟨.record record, member, rfl⟩

/-- The names of records do not depend on their identifiers. -/
theorem recordNames_relabelled (record : RecordDef) (label : Option WireId) :
    recordNames (before ++ .record { record with wireId := label } :: after) =
      recordNames (before ++ .record record :: after) := by
  rw [recordNames, List.filterMap_append, recordNames, List.filterMap_append]
  rfl

theorem notMem_recordNames_of_bindFirst?_eq_none (h : bindFirst? name id definitions = none) :
    name ∉ recordNames definitions := by
  induction definitions with
  | nil => exact List.not_mem_nil
  | cons definition rest ih =>
      cases definition with
      | record first =>
          unfold bindFirst? at h
          by_cases named : first.name = name
          · rw [if_pos named] at h
            cases h
          · rw [if_neg named] at h
            have others := ih (Option.map_eq_none_iff.mp h)
            exact List.not_mem_cons_of_ne_of_not_mem (Ne.symm named) others
      | enumeration first => exact ih (Option.map_eq_none_iff.mp h)

/-- If no record has a name, it does not matter what the name stands for. -/
theorem Labelled.update_of_absent (h : Labelled ids definitions)
    (absent : name ∉ recordNames definitions) (label : Option WireId) :
    Labelled (Function.update ids name label) definitions := by
  rintro before record after rfl
  have other : record.name ≠ name := by
    rintro rfl
    exact absent (mem_recordNames_iff.mpr ⟨record, by simp, rfl⟩)
  rw [h before record after rfl, Function.update_of_ne other]

/-- Binding an identifier to the first record of a name changes what the name stands for. -/
theorem Labelled.bindFirst? (h : Labelled ids definitions)
    (hbound : Model.bindFirst? name id definitions = some bound) :
    Labelled (Function.update ids name (some id)) bound := by
  obtain ⟨front, first, back, rfl, rfl, fresh, rfl⟩ := exists_of_bindFirst? hbound
  have fresh : first.name ∉ recordNames front := by
    rw [mem_recordNames_iff]
    rintro ⟨other, member, named⟩
    exact fresh other member named
  intro before record after split
  -- The record stands before the one that is bound, or is that one, or stands behind it.
  rcases Lists.append_eq_append_cons_iff.mp split with ⟨rest, rfl, rfl⟩ | ⟨rest, rfl, hrest⟩
  · have other : record.name ≠ first.name := by
      intro same
      exact fresh (mem_recordNames_iff.mpr ⟨record, by simp, same⟩)
    rw [h before record (rest ++ .record first :: back) (by simp),
      Function.update_of_ne other]
  · cases rest with
    | nil =>
        cases hrest
        rw [List.append_nil, if_neg fresh, Function.update_self]
    | cons definition rest =>
        obtain ⟨rfl, rfl⟩ := List.cons.inj hrest
        rw [recordNames_relabelled, h (front ++ .record first :: rest) record after (by simp)]
        by_cases earlier : record.name ∈ recordNames (front ++ .record first :: rest)
        · rw [if_pos earlier, if_pos earlier]
        · have other : record.name ≠ first.name := by
            intro same
            exact earlier (mem_recordNames_iff.mpr ⟨first, by simp, same.symm⟩)
          rw [if_neg earlier, if_neg earlier, Function.update_of_ne other]

theorem Labelled.bind {model : Model} (h : Labelled ids model.definitions) (name : String)
    (id : WireId) :
    Labelled (Function.update ids name (some id)) (model.bind name id).definitions := by
  unfold Model.bind bind?
  cases hbound : Model.bindFirst? name id model.definitions with
  | none => exact h.update_of_absent (notMem_recordNames_of_bindFirst?_eq_none hbound) _
  | some bound => exact h.bindFirst? hbound

end Model

namespace CrossReference

variable {model : Model} {types : TypeSet} {node : NodeId} {found : CrossReference}

theorem labelled_start (unbound : ∀ record, .record record ∈ model.definitions →
    record.wireId = none) :
    Model.Labelled (lastBound (start model).bound) (start model).model.definitions := by
  intro before record after split
  have member : .record record ∈ model.definitions := by
    rw [show model.definitions = _ from split]
    simp
  rw [unbound record member]
  split <;> rfl

/-- A child that binds a name binds it in the model as well; any other child leaves both alone. -/
theorem labelled_add (h : Model.Labelled (lastBound found.bound) found.model.definitions)
    (child : Child) (descriptions : List NodeId) :
    Model.Labelled (lastBound (found.add types node child descriptions).1.bound)
      (found.add types node child descriptions).1.model.definitions := by
  rcases found.add_cases types node child descriptions with
    ⟨more, _, same⟩ | ⟨name, id, _, same⟩
  · rw [same]
    exact h
  · rw [same, lastBound_concat]
    exact h.bind name id

theorem labelled_gather (h : Model.Labelled (lastBound found.bound) found.model.definitions)
    (answered : List (Child × List NodeId)) :
    Model.Labelled (lastBound (found.gather types node answered).bound)
      (found.gather types node answered).model.definitions :=
  gather_keeps (fun found => Model.Labelled (lastBound found.bound) found.model.definitions)
    (fun _ child descriptions before => labelled_add before child descriptions) h answered

end CrossReference

namespace Loader

variable {loader : Loader} {node : NodeId} {session after : Session} {report : Report}

/-- The model of a report is that of the document, up to the identifiers of records. The first
record of a name has the last identifier bound to the name, so none if the name is not bound, and
every other record of the name has none. -/
theorem model_of_report (h : loader.registerNode node session = (.ok report, after)) :
    ∃ model types, loader.space.Defines session node model types ∧
      report.model.definitions.map Definition.withoutId = model.definitions ∧
      ∀ before record rest, report.model.definitions = before ++ .record record :: rest →
        ((∀ other, .record other ∈ before → other.name ≠ record.name) →
          record.wireId =
            (report.bound.findRev? fun pair => pair.1 = record.name).map Prod.snd) ∧
        ((∃ other, .record other ∈ before ∧ other.name = record.name) → record.wireId = none) := by
  obtain ⟨plan, middle, hplan, _, done⟩ := registerNode_eq_ok h
  obtain ⟨model, answered, defines, _, _, found⟩ := AddressSpace.plan_eq_ok hplan
  have unbound : ∀ record, .record record ∈ model.definitions → record.wireId = none := by
    obtain ⟨_, root, _, _, built, _⟩ := defines
    exact Model.wireId_of_build built
  have labels : plan.found.Labels model := by
    rw [found]
    exact (CrossReference.labels_start unbound).gather answered
  have labelled : Model.Labelled (lastBound plan.found.bound) plan.found.model.definitions := by
    rw [found]
    exact CrossReference.labelled_gather (CrossReference.labelled_start unbound) answered
  rw [done.model_eq, done.bound_eq]
  refine ⟨model, plan.types, defines,
    labels.definitions.trans (Definition.map_withoutId_of_unlabelled unbound), ?_⟩
  intro before record rest split
  have label := labelled before record rest split
  refine ⟨?_, ?_⟩
  · intro first
    rw [if_neg] at label
    · exact label
    · rw [Model.mem_recordNames_iff]
      rintro ⟨other, member, named⟩
      exact first other member named
  · intro earlier
    rwa [if_pos (Model.mem_recordNames_iff.mpr earlier)] at label

/-- A loader of a server with one dictionary that defines `P` twice, and `Q`. Two children describe
`P`, each with an identifier of its own. -/
def sampleDoubled : Loader :=
  sample "<d><StructuredType Name='P'/><StructuredType Name='P'/><StructuredType Name='Q'/></d>"
    (.ok [⟨"i=2"⟩])

/-- The first `P` has the identifier that was bound last, and neither the other `P` nor `Q` has
any. -/
theorem model_of_report_sample :
    ∃ report after, sampleDoubled.registerNode ⟨"d"⟩ (.start (.new true)) = (.ok report, after) ∧
      report.bound = [("P", ⟨"i=1"⟩), ("P", ⟨"i=2"⟩)] ∧
      ∃ first later other, report.model.definitions =
          [.record ⟨⟨"P", []⟩, first⟩, .record ⟨⟨"P", []⟩, later⟩, .record ⟨⟨"Q", []⟩, other⟩] ∧
        first = some ⟨"i=2"⟩ ∧ later = none ∧ other = none := by
  have outcome : (sampleDoubled.registerNode ⟨"d"⟩ (.start (.new true))).1.map
      (fun report => (report.bound, report.model.definitions)) =
      .ok ([("P", ⟨"i=1"⟩), ("P", ⟨"i=2"⟩)],
        [.record ⟨⟨"P", []⟩, some ⟨"i=2"⟩⟩, .record ⟨⟨"P", []⟩, none⟩,
          .record ⟨⟨"Q", []⟩, none⟩]) := by decide +kernel
  obtain ⟨report, hreport, hpair⟩ := Fallible.map_eq_ok_iff.mp outcome
  obtain ⟨bound, split⟩ := Prod.mk.inj hpair
  have run := Prod.fst_eq_iff.mp hreport
  obtain ⟨_, _, _, _, labels⟩ := model_of_report run
  rw [bound, split] at labels
  have first := (labels [] _ _ rfl).1 (by simp)
  have later := (labels [_] _ _ rfl).2 ⟨_, List.mem_cons_self, rfl⟩
  have other := (labels [_, _] _ _ rfl).1 (by simp)
  exact ⟨report, _, run, bound, _, _, _, split, first, later, other⟩

end Loader

end TypeDictionary
