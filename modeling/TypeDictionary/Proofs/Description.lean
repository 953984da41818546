import Mathlib.Data.List.Forall2
import TypeDictionary.Proofs.Acceptance

/-!
# What elements describe

A record and an enumeration can be read off their element without going through it step by step. A
field is told by its own element and by the field element directly before, which makes it an array
if it announces a length; a member is told by its own element alone. Nothing else counts, least of
all what was read before the element.

`record_eq_ok_iff` and `enumeration_eq_ok_iff` say that reading a sound element gives what it
describes. `build_eq_ok_iff` says so of a whole tree, whose model has one definition for each
element that describes one.
-/

namespace TypeDictionary

namespace Build

open Fallible
open Markup (Element)

/-- Whether a field element announces the length of an array. -/
def announcesLength (element : Element) : Bool := (rawName? element).any Rule.record.isExempt

/-- Some elements, each with the one directly before it. The first comes after `previous`. -/
def withPrevious (previous : Option Element) (elements : List Element) :
    List (Option Element × Element) :=
  (previous :: elements.map some).zip elements

/-- The elements among some field elements that describe a field, each with the field element
directly before it. -/
def fieldPlaces (previous : Option Element) (elements : List Element) :
    List (Option Element × Element) :=
  (withPrevious previous elements).filter fun place => !announcesLength place.2

/-- Whether a field is what its element describes after another field element, if there is one. -/
structure DescribesField (place : Option Element × Element) (field : Field TypeRef) : Prop where
  name : (rawName? place.2).map Identifier.clean = some field.name
  type : (place.2.attribute? Property.typeName.attributeName).map TypeRef.parse = some field.type
  isArray : field.isArray = place.1.any announcesLength
  recipe : field.recipe = if field.isArray then .emptySequence else .ofElement field.type

/-- Whether a member is what its element describes. -/
structure DescribesMember (element : Element) (member : Member) : Prop where
  name : (rawName? element).map Identifier.clean = some member.name
  value : ∃ raw, element.attribute? Property.value.attributeName = some raw ∧
    Text.Numeral.Denotes (Text.trim raw.toList) member.value.toInt

/-- Whether a record is what an element describes: it has the element's name, and a field for each
field element that does not announce a length. -/
structure DescribesRecord (element : Element) (definition : RecordDef) : Prop where
  name : (rawName? element).map Identifier.clean = some definition.name
  fields : List.Forall₂ DescribesField (fieldPlaces none (Rule.record.items element))
    definition.fields
  wireId : definition.wireId = none

/-- Whether an enumeration is what an element describes: it has the element's name, and a member for
each value element. -/
structure DescribesEnumeration (element : Element) (definition : Enumeration) : Prop where
  name : (rawName? element).map Identifier.clean = some definition.name
  members : List.Forall₂ DescribesMember (Rule.enumeration.items element) definition.members

variable {owner : String} {element : Element} {elements : List Element}

section Unique

theorem DescribesField.unique {place : Option Element × Element} {first second : Field TypeRef}
    (h : DescribesField place first) (h' : DescribesField place second) : first = second := by
  have name := Option.some.inj (h.name.symm.trans h'.name)
  have type := Option.some.inj (h.type.symm.trans h'.type)
  have isArray := h.isArray.trans h'.isArray.symm
  have recipe : first.recipe = second.recipe := by
    rw [h.recipe, h'.recipe, isArray, type]
  cases first
  cases second
  simp_all

theorem DescribesMember.unique {first second : Member} (h : DescribesMember element first)
    (h' : DescribesMember element second) : first = second := by
  have name := Option.some.inj (h.name.symm.trans h'.name)
  have value : first.value = second.value := by
    obtain ⟨raw, hraw, denotes⟩ := h.value
    obtain ⟨raw', hraw', denotes'⟩ := h'.value
    obtain rfl : raw = raw' := Option.some.inj (hraw.symm.trans hraw')
    exact Option.some.inj
      ((memberValue_eq_some_iff.mpr denotes).symm.trans (memberValue_eq_some_iff.mpr denotes'))
  cases first
  cases second
  simp_all

theorem DescribesRecord.unique {first second : RecordDef} (h : DescribesRecord element first)
    (h' : DescribesRecord element second) : first = second := by
  have name := Option.some.inj (h.name.symm.trans h'.name)
  have unique : Relator.RightUnique DescribesField := fun _ _ _ h h' => h.unique h'
  have fields := List.right_unique_forall₂' unique h.fields h'.fields
  have wireId := h.wireId.trans h'.wireId.symm
  obtain ⟨⟨_, _⟩, _⟩ := first
  obtain ⟨⟨_, _⟩, _⟩ := second
  simp_all

theorem DescribesEnumeration.unique {first second : Enumeration}
    (h : DescribesEnumeration element first) (h' : DescribesEnumeration element second) :
    first = second := by
  have name := Option.some.inj (h.name.symm.trans h'.name)
  have unique : Relator.RightUnique DescribesMember := fun _ _ _ h h' => h.unique h'
  have members := List.right_unique_forall₂' unique h.members h'.members
  cases first
  cases second
  simp_all

end Unique

theorem cleaned_of_identifier {construct : Construct} {name : String}
    (h : identifier element construct = .ok name) :
    (rawName? element).map Identifier.clean = some name := by
  obtain ⟨raw, named, cleaned, _⟩ := identifier_eq_ok_iff.mp h
  rw [rawName?, named, Option.map_some, cleaned]

theorem fieldPlaces_cons (previous : Option Element) (element : Element) (rest : List Element) :
    fieldPlaces previous (element :: rest) =
      if announcesLength element then fieldPlaces (some element) rest
      else (previous, element) :: fieldPlaces (some element) rest := by
  have pairs : withPrevious previous (element :: rest) =
      (previous, element) :: withPrevious (some element) rest := rfl
  rw [fieldPlaces, pairs, List.filter_cons]
  cases announcesLength element <;> rfl

/-- The loop over field elements adds the fields that these describe. What it knows of the elements
before is whether the last of them has announced a length. -/
theorem describes_fields {pending : Bool} {previous : Option Element}
    {earlier result : List (Field TypeRef)} (flag : pending = previous.any announcesLength)
    (h : Build.fields owner pending earlier elements = .ok result) :
    ∃ made, result = earlier ++ made ∧
      List.Forall₂ DescribesField (fieldPlaces previous elements) made := by
  induction elements generalizing pending previous earlier with
  | nil =>
      cases h
      exact ⟨[], (List.append_nil _).symm, .nil⟩
  | cons element rest ih =>
      obtain ⟨raw, hraw, turn⟩ := fields_cons_ok h
      have announces : announcesLength element = isArrayLength raw := by
        rw [announcesLength, rawName?, required_eq_ok_iff.mp hraw, isArrayLength_eq]
        rfl
      rw [fieldPlaces_cons, announces]
      rcases turn with ⟨length, h⟩ | ⟨noLength, name, typeName, hname, htype, _, h⟩
      · -- No field is made, and the next one comes after an element that announces a length.
        have flag : true = (some element).any announcesLength := by
          rw [Option.any_some, announces, length]
        rw [if_pos length]
        exact ih flag h
      · have flag' : false = (some element).any announcesLength := by
          rw [Option.any_some, announces, noLength]
        obtain ⟨made, rfl, described⟩ := ih flag' h
        have named := cleaned_of_identifier hname
        have typed := required_eq_ok_iff.mp htype
        refine ⟨_ :: made, List.append_assoc _ _ _, ?_⟩
        rw [noLength, if_neg Bool.false_ne_true]
        refine .cons ⟨?_, ?_, ?_, ?_⟩ described
        · cases pending <;> exact named
        · cases pending <;> simp [typed, Field.array, Field.scalar]
        · rw [← flag]
          cases pending <;> rfl
        · cases pending <;> simp [Field.array, Field.scalar]

theorem describes_members {earlier result : List Member}
    (h : Build.members owner earlier elements = .ok result) :
    ∃ made, result = earlier ++ made ∧ List.Forall₂ DescribesMember elements made := by
  induction elements generalizing earlier with
  | nil =>
      cases h
      exact ⟨[], (List.append_nil _).symm, .nil⟩
  | cons element rest ih =>
      obtain ⟨name, raw, value, hname, hraw, hvalue, _, h⟩ := members_cons_ok h
      obtain ⟨made, rfl, described⟩ := ih h
      refine ⟨⟨name, value⟩ :: made, List.append_assoc _ _ _, .cons ⟨?_, ?_⟩ described⟩
      · exact cleaned_of_identifier hname
      · exact ⟨raw, required_eq_ok_iff.mp hraw, memberValue_eq_some_iff.mp hvalue⟩

theorem describes_record {definition : RecordDef} (h : record element = .ok definition) :
    DescribesRecord element definition := by
  have wireId := wireId_of_record h
  obtain ⟨name, hname, h⟩ := bind_eq_ok_iff.mp h
  obtain ⟨fields, hfields, h⟩ := bind_eq_ok_iff.mp h
  cases h
  have first : false = (none : Option Element).any announcesLength := rfl
  obtain ⟨made, rfl, described⟩ := describes_fields first hfields
  exact ⟨cleaned_of_identifier hname, described, wireId⟩

theorem describes_enumeration {definition : Enumeration}
    (h : enumeration element = .ok definition) : DescribesEnumeration element definition := by
  obtain ⟨name, hname, h⟩ := bind_eq_ok_iff.mp h
  obtain ⟨members, hmembers, h⟩ := bind_eq_ok_iff.mp h
  cases h
  obtain ⟨made, rfl, described⟩ := describes_members hmembers
  exact ⟨cleaned_of_identifier hname, described⟩

/-- If reading an element by a rule fails with its fault and otherwise gives what it describes, then
it gives that for every sound element. -/
theorem eq_ok_iff_describes {β : Type} {rule : Rule} {read : Except BuildError β}
    {describes : β → Prop} (failed : ∀ error, read = .error error ↔ rule.Fault element error)
    (sound : ∀ value, read = .ok value → describes value)
    (unique : ∀ first second, describes first → describes second → first = second) (value : β) :
    read = .ok value ↔ rule.Sound element ∧ describes value := by
  have succeeds : (∃ value, read = .ok value) ↔ rule.Sound element := by
    rw [exists_ok_iff, ← Rule.not_fault_iff]
    simp only [ne_eq, failed]
  constructor
  · intro h
    exact ⟨succeeds.mp ⟨value, h⟩, sound value h⟩
  · rintro ⟨hsound, described⟩
    obtain ⟨other, h⟩ := succeeds.mpr hsound
    rw [h, unique other value (sound other h) described]

theorem record_eq_ok_iff (element : Element) (definition : RecordDef) :
    record element = .ok definition ↔
      Rule.record.Sound element ∧ DescribesRecord element definition :=
  eq_ok_iff_describes (fun _ => record_eq_error_iff) (fun _ => describes_record)
    (fun _ _ => DescribesRecord.unique) definition

theorem enumeration_eq_ok_iff (element : Element) (definition : Enumeration) :
    enumeration element = .ok definition ↔
      Rule.enumeration.Sound element ∧ DescribesEnumeration element definition :=
  eq_ok_iff_describes (fun _ => enumeration_eq_error_iff) (fun _ => describes_enumeration)
    (fun _ _ => DescribesEnumeration.unique) definition

/-- The models of a tree: the elements that define something are sound, and there is a record for
each element that describes one, in document order, and then an enumeration for each element that
describes one. -/
theorem build_eq_ok_iff {root : Element} {model : Model} :
    Model.build root = .ok model ↔
      ∃ records enumerations,
        model.definitions = records.map .record ++ enumerations.map .enumeration ∧
        List.Forall₂ (fun element definition =>
            Rule.record.Sound element ∧ DescribesRecord element definition)
          (Rule.record.elements root) records ∧
        List.Forall₂ (fun element definition =>
            Rule.enumeration.Sound element ∧ DescribesEnumeration element definition)
          (Rule.enumeration.elements root) enumerations := by
  simp only [← record_eq_ok_iff, ← enumeration_eq_ok_iff]
  constructor
  · intro h
    obtain ⟨definitions, made, rfl⟩ := map_eq_ok_iff.mp h
    have steps := all_eq_ok_iff.mp made
    rw [plan_eq] at steps
    obtain ⟨first, second, rfl, hfirst, hsecond⟩ := List.map_eq_append_iff.mp steps.symm
    obtain ⟨records, rfl, madeRecords⟩ := map_eq_map_ok_iff.mp hfirst.symm
    obtain ⟨enumerations, rfl, madeEnumerations⟩ := map_eq_map_ok_iff.mp hsecond.symm
    exact ⟨records, enumerations, rfl, madeRecords, madeEnumerations⟩
  · rintro ⟨records, enumerations, definitions, madeRecords, madeEnumerations⟩
    refine map_eq_ok_iff.mpr ⟨model.definitions, ?_, rfl⟩
    rw [all_eq_ok_iff, plan_eq, definitions, List.map_append,
      map_eq_map_ok_iff.mpr ⟨records, rfl, madeRecords⟩,
      map_eq_map_ok_iff.mpr ⟨enumerations, rfl, madeEnumerations⟩]

theorem exists_of_build {root : Element} {model : Model} (h : Model.build root = .ok model) :
    ∃ records enumerations,
      model.definitions = records.map .record ++ enumerations.map .enumeration ∧
      List.Forall₂ DescribesRecord (Rule.record.elements root) records ∧
      List.Forall₂ DescribesEnumeration (Rule.enumeration.elements root) enumerations := by
  obtain ⟨records, enumerations, definitions, described, describedEnumerations⟩ :=
    build_eq_ok_iff.mp h
  exact ⟨records, enumerations, definitions, described.imp fun _ _ => And.right,
    describedEnumerations.imp fun _ _ => And.right⟩

/-- A record can be read from an element exactly when the element is sound, and is then what the
element describes: a field for each field element but those that announce a length, an array if the
field element directly before announces one. In a model too each record is described by its own
element, whatever has been read before. -/
theorem record_characterization :
    (∀ element definition, record element = .ok definition ↔
      Rule.record.Sound element ∧ DescribesRecord element definition) ∧
    ∀ root model, Model.build root = .ok model →
      ∃ records others, model.definitions = records.map .record ++ others ∧
        List.Forall₂ DescribesRecord (Rule.record.elements root) records := by
  refine ⟨record_eq_ok_iff, ?_⟩
  intro root model h
  obtain ⟨records, enumerations, definitions, described, _⟩ := exists_of_build h
  exact ⟨records, _, definitions, described⟩

def sampleField (name type : String) : Element :=
  ⟨"Field", [("Name", name), ("TypeName", type)], []⟩

/-- A record with length fields first, in a row, apart from their array and last. -/
def sampleLengths : Element :=
  ⟨"StructuredType", [("Name", "P")],
    [sampleField "NoOfText" "opc:Int32", ⟨"Documentation", [], []⟩, sampleField "Text" "opc:Char",
      sampleField "One" "opc:Int32", sampleField "NoOfA" "opc:Int32",
      sampleField "NoOfB" "opc:Int32", sampleField "All" "t:P", sampleField "NoOfC" "opc:Int32"]⟩

/-- The length field that is last in a record makes no array of the first field of the next. -/
theorem record_characterization_sample :
    let first : RecordDef :=
      ⟨⟨"P", [.array "Text" (.primitive .char), .scalar "One" (.primitive .int32),
        .array "All" (.named "P")]⟩, none⟩
    let second : RecordDef := ⟨⟨"Q", [.scalar "C" (.named "P")]⟩, none⟩
    let root : Element :=
      ⟨"d", [], [sampleLengths, ⟨"StructuredType", [("Name", "Q")], [sampleField "C" "P"]⟩]⟩
    let model : Model := ⟨[.record first, .record second]⟩
    record sampleLengths = .ok first ∧ DescribesRecord sampleLengths first ∧
      Model.build root = .ok model ∧
      ∃ records others, model.definitions = records.map .record ++ others ∧
        List.Forall₂ DescribesRecord (Rule.record.elements root) records := by
  intro first second root model
  have made : record sampleLengths = .ok first := by decide +kernel
  have built : Model.build root = .ok model := by decide +kernel
  exact ⟨made, ((record_characterization.1 sampleLengths first).mp made).2, built,
    record_characterization.2 root model built⟩

end Build

end TypeDictionary
