import TypeDictionary.Proofs.Description
import TypeDictionary.Proofs.Resolution
import TypeDictionary.Value.Instance

/-!
# Enumerations of a document

The members of an enumeration have different names but may share values, so a name leads to its one
member and a value to the first of those that have it. An enumeration refers to nothing, and keeps
on its way from the document to the set of types what its element describes.

`Model.enumeration_of_last_element` follows the last element of a name, the one whose enumeration
the set keeps.
-/

namespace TypeDictionary

namespace Enumeration

variable {enumeration : Enumeration} {member : Member} {value : Int64}

/-- Whether an answer is the first member with a value: no member if none has it. -/
inductive FirstWith (enumeration : Enumeration) (value : Int64) : Option Member → Prop
  | found {before after : List Member} {member : Member}
      (split : enumeration.members = before ++ member :: after) (has : member.value = value)
      (first : ∀ earlier ∈ before, earlier.value ≠ value) :
      FirstWith enumeration value (some member)
  | absent (lacks : ∀ member ∈ enumeration.members, member.value ≠ value) :
      FirstWith enumeration value none

theorem firstWith_memberByValue? (enumeration : Enumeration) (value : Int64) :
    enumeration.FirstWith value (enumeration.memberByValue? value) := by
  unfold memberByValue?
  cases found : enumeration.members.find? fun member => decide (member.value = value) with
  | none =>
      apply FirstWith.absent
      simpa using found
  | some member =>
      obtain ⟨has, before, after, split, first⟩ := List.find?_eq_some_iff_append.mp found
      apply FirstWith.found split (of_decide_eq_true has)
      simpa using first

/-- The name of a member leads to it if no two members have the same name. -/
theorem member?_of_mem (distinct : (enumeration.members.map Member.name).Nodup)
    (h : member ∈ enumeration.members) : enumeration.member? member.name = some member := by
  obtain ⟨before, after, split⟩ := List.append_of_mem h
  rw [split, List.map_append, List.map_cons, List.nodup_append] at distinct
  rw [member?, List.find?_eq_some_iff_append]
  refine ⟨decide_eq_true rfl, before, after, split, ?_⟩
  intro earlier hearlier
  have apart := distinct.2.2 _ (List.mem_map_of_mem hearlier) _ List.mem_cons_self
  simpa using apart

theorem member?_eq_none_iff {name : String} :
    enumeration.member? name = none ↔ name ∉ enumeration.members.map Member.name := by
  simp [member?]

/-- What an enumeration answers: each name of a member with that member and its value, other names
with nothing, a value with the first member that has it, and the zero with the name of the first
member that is zero. -/
structure Answers (enumeration : Enumeration) : Prop where
  member : ∀ member ∈ enumeration.members, enumeration.member? member.name = some member
  value : ∀ member ∈ enumeration.members,
    enumeration.valueOf? member.name = some ⟨enumeration.name, some member.name, member.value⟩
  undeclared : ∀ name, name ∉ enumeration.members.map Member.name →
    enumeration.member? name = none ∧ enumeration.valueOf? name = none
  byValue : ∀ value, enumeration.FirstWith value (enumeration.memberByValue? value)
  zero : ∃ first, enumeration.FirstWith 0 first ∧
    enumeration.zero = ⟨enumeration.name, first.map Member.name, 0⟩

theorem WellFormed.answers (sound : enumeration.WellFormed) : enumeration.Answers where
  member _ h := member?_of_mem sound.distinct h
  value member h := by
    rw [valueOf?, member?_of_mem sound.distinct h]
    rfl
  undeclared name h := by
    rw [valueOf?, member?_eq_none_iff.mpr h]
    exact ⟨rfl, rfl⟩
  byValue := firstWith_memberByValue? enumeration
  zero := ⟨_, firstWith_memberByValue? enumeration 0, rfl⟩

end Enumeration

namespace Model

open Build
open Markup (Element)

variable {root element : Element} {model : Model} {before after : List Element}

theorem names_of_describes {elements : List Element} {enumerations : List Enumeration}
    (h : List.Forall₂ DescribesEnumeration elements enumerations) :
    enumerations.map (fun enumeration => some enumeration.name) =
      elements.map fun element => (rawName? element).map Identifier.clean := by
  induction h with
  | nil => rfl
  | cons first _ ih => rw [List.map_cons, List.map_cons, ih, first.name]

/-- The last element of a name among those that describe an enumeration describes the last
definition of that name, for enumerations come after all records. -/
theorem exists_last_definition (built : Model.build root = .ok model)
    (split : Rule.enumeration.elements root = before ++ element :: after)
    (last : ∀ later ∈ after,
      (rawName? later).map Identifier.clean ≠ (rawName? element).map Identifier.clean) :
    ∃ earlier enumeration later,
      model.definitions = earlier ++ .enumeration enumeration :: later ∧
      DescribesEnumeration element enumeration ∧
      ∀ definition ∈ later, definition.name ≠ enumeration.name := by
  obtain ⟨records, enumerations, definitions, _, described⟩ := exists_of_build built
  rw [split] at described
  obtain ⟨earlier, enumeration, later, rfl, _, describes, behind⟩ :=
    Lists.exists_split_of_forall₂ described
  refine ⟨records.map .record ++ earlier.map .enumeration, enumeration, later.map .enumeration,
    ?_, describes, ?_⟩
  · rw [definitions, List.map_append, List.map_cons, List.append_assoc]
  · rw [List.forall_mem_map]
    intro other hother same
    have named : some enumeration.name ∈ later.map fun other => some other.name :=
      List.mem_map.mpr ⟨other, hother, congrArg some same⟩
    rw [names_of_describes behind, ← describes.name] at named
    obtain ⟨source, hsource, same⟩ := List.mem_map.mp named
    exact last source hsource same

/-- When a document builds and resolves, the set has an enumeration under the name of the last
element of that name, and it is what the element describes: one member for each value element, in
document order. Names of members lead to them, and values to the first member that has them. -/
theorem enumeration_of_last_element {known : KnownTypes} {set : TypeSet}
    (built : Model.build root = .ok model) (resolved : model.resolve known = .ok set)
    (split : Rule.enumeration.elements root = before ++ element :: after)
    (last : ∀ later ∈ after,
      (rawName? later).map Identifier.clean ≠ (rawName? element).map Identifier.clean) :
    ∃ enumeration, DescribesEnumeration element enumeration ∧
      set.get? enumeration.name = some (.enumeration enumeration) ∧ enumeration.Answers := by
  obtain ⟨earlier, enumeration, later, definitions, describes, apart⟩ :=
    exists_last_definition built split last
  obtain ⟨type, found, resolves⟩ :=
    (Resolution.complete_of_extend .empty resolved).latest definitions apart
  have member : .enumeration enumeration ∈ model.definitions := by
    rw [definitions]
    exact List.mem_append_right earlier List.mem_cons_self
  have sound : enumeration.WellFormed := wellFormed_of_build built _ member
  cases resolves
  exact ⟨enumeration, describes, found, sound.answers⟩

def sampleMember (name value : String) : Element :=
  ⟨"EnumeratedValue", [("Name", name), ("Value", value)], []⟩

/-- An enumeration with a negative member and two that are zero. -/
def sampleModes : Element :=
  ⟨"EnumeratedType", [("Name", "My Mode")],
    [sampleMember "Low" "-1", ⟨"Documentation", [], []⟩, sampleMember "n/a" " +0 ",
      sampleMember "Off" "0"]⟩

/-- The set keeps the last of two enumerations whose names are cleaned to the same identifier. A
record of this name that stands behind them makes no difference. -/
theorem enumeration_of_last_element_sample :
    let root : Element :=
      ⟨"d", [], [⟨"EnumeratedType", [("Name", "My.Mode")], [sampleMember "Old" "5"]⟩,
        ⟨"group", [], [sampleModes]⟩, ⟨"StructuredType", [("Name", "My_Mode")], []⟩]⟩
    let modes : Enumeration := ⟨"My_Mode", [⟨"Low", -1⟩, ⟨"n_a", 0⟩, ⟨"Off", 0⟩]⟩
    ∃ model set, Model.build root = .ok model ∧ model.resolve .none = .ok set ∧
      DescribesEnumeration sampleModes modes ∧
      set.get? "My_Mode" = some (.enumeration modes) ∧ modes.Answers ∧
      modes.memberByValue? 0 = some ⟨"n_a", 0⟩ ∧ modes.zero = ⟨"My_Mode", some "n_a", 0⟩ := by
  intro root modes
  let model : Model :=
    ⟨[.record ⟨⟨"My_Mode", []⟩, none⟩, .enumeration ⟨"My_Mode", [⟨"Old", 5⟩]⟩,
      .enumeration modes]⟩
  have built : Model.build root = .ok model := by decide +kernel
  obtain ⟨set, resolved⟩ : ∃ set, model.resolve .none = .ok set := ⟨_, rfl⟩
  have split : Rule.enumeration.elements root =
      [⟨"EnumeratedType", [("Name", "My.Mode")], [sampleMember "Old" "5"]⟩] ++
        sampleModes :: [] := rfl
  have describes : DescribesEnumeration sampleModes modes := by
    apply describes_enumeration
    decide +kernel
  obtain ⟨enumeration, describes', found, answers⟩ :=
    enumeration_of_last_element built resolved split (by simp)
  obtain rfl := describes'.unique describes
  exact ⟨model, set, built, resolved, describes, found, answers, rfl, rfl⟩

end Model

end TypeDictionary
