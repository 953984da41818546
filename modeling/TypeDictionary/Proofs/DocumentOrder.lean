import TypeDictionary.Proofs.Dependence
import TypeDictionary.Proofs.Description

/-!
# Records and enumerations in document order

A model lists the records of a tree in document order and then its enumerations, at whatever depth
and in whatever elements they stand. So it does not count how the two kinds are mixed: subtrees side
by side can change places if one has no record in it and the other no enumeration, and neither is a
field or a member of what is around them. `Swapped` is such a change somewhere in a tree, and
leaves an equivalent tree.
-/

namespace TypeDictionary

namespace Build

open Markup (Element)

/-- No element of a subtree, its root included, is one of a construct. -/
def Lacks (element : Element) (construct : Construct) : Prop :=
  ∀ descendant ∈ element.preorder, descendant.name ≠ construct.elementName

instance (element : Element) (construct : Construct) : Decidable (Lacks element construct) :=
  inferInstanceAs (Decidable (∀ descendant ∈ element.preorder, _))

/-- An element that is neither a field nor a member of the element around it. -/
def IsNoItem (element : Element) : Prop :=
  element.name ≠ Construct.field.elementName ∧
    element.name ≠ Construct.enumeratedValue.elementName

/-- Subtrees whose order does not count. -/
structure Independent (first second : Element) : Prop where
  first_isNoItem : IsNoItem first
  second_isNoItem : IsNoItem second
  apart : (Lacks first .structuredType ∧ Lacks second .enumeratedType) ∨
    (Lacks first .enumeratedType ∧ Lacks second .structuredType)

/-- A tree in which two independent subtrees, side by side, have changed places. -/
inductive Swapped : Element → Element → Prop
  | here {name : String} {attributes : List (String × String)} {before after : List Element}
      {first second : Element} (independent : Independent first second) :
      Swapped ⟨name, attributes, before ++ first :: second :: after⟩
        ⟨name, attributes, before ++ second :: first :: after⟩
  | within {name : String} {attributes : List (String × String)} {before after : List Element}
      {child other : Element} (swapped : Swapped child other) :
      Swapped ⟨name, attributes, before ++ child :: after⟩
        ⟨name, attributes, before ++ other :: after⟩

variable {rule : Rule} {element first second : Element}

theorem elements_of_lacks (h : Lacks element rule.definition) : rule.elements element = [] := by
  rw [Rule.elements, List.filter_eq_nil_iff]
  intro descendant hdescendant
  simpa using h descendant hdescendant

theorem IsNoItem.name_ne (h : IsNoItem element) (known : rule ∈ Rule.all) :
    element.name ≠ rule.item.elementName := by
  simp only [Rule.all, List.mem_cons, List.not_mem_nil, or_false] at known
  rcases known with rfl | rfl
  · exact h.1
  · exact h.2

/-- Of either kind of definitions one of the subtrees has none. -/
theorem Independent.elements_comm (h : Independent first second) (known : rule ∈ Rule.all) :
    rule.elements first ++ rule.elements second = rule.elements second ++ rule.elements first := by
  have empty : rule.elements first = [] ∨ rule.elements second = [] := by
    simp only [Rule.all, List.mem_cons, List.not_mem_nil, or_false] at known
    rcases known with rfl | rfl
    · rcases h.apart with ⟨lacks, _⟩ | ⟨_, lacks⟩
      · exact .inl (elements_of_lacks lacks)
      · exact .inr (elements_of_lacks lacks)
    · rcases h.apart with ⟨_, lacks⟩ | ⟨lacks, _⟩
      · exact .inr (elements_of_lacks lacks)
      · exact .inl (elements_of_lacks lacks)
  rcases empty with empty | empty
  · rw [empty, List.nil_append, List.append_nil]
  · rw [empty, List.nil_append, List.append_nil]

/-- A tree is equivalent to what a change of places makes of it: around the two subtrees nothing
that is read has changed, and what there is to define comes in the same order. -/
theorem Swapped.equivalent {root other : Element} (h : Swapped root other) :
    Equivalent root other := by
  induction h with
  | @here name attributes before after first second independent =>
      refine .of_same_below rfl (fun _ => rfl) ?_ ?_
      · intro rule known
        have firstNoItem := independent.first_isNoItem.name_ne known
        have secondNoItem := independent.second_isNoItem.name_ne known
        simp [Rule.items, Element.childrenNamed, firstNoItem, secondNoItem]
      · intro rule known
        simp only [List.flatMap_append, List.flatMap_cons]
        rw [← List.append_assoc (rule.elements first), independent.elements_comm known,
          List.append_assoc]
  | within _ ih => exact ih.within

end Build

namespace Model

open Build
open Markup (Element)

/-- The model of a tree lists one record for each of its record elements, wherever they stand, in
document order, and then one enumeration for each of its enumeration elements, in document order.
How the two kinds are mixed makes no difference, to the model or to the error. -/
theorem definitions_in_document_order (root : Element) :
    (∀ model, Model.build root = .ok model → ∃ records enumerations,
      model.definitions = records.map .record ++ enumerations.map .enumeration ∧
      List.Forall₂ DescribesRecord (Rule.record.elements root) records ∧
      List.Forall₂ DescribesEnumeration (Rule.enumeration.elements root) enumerations) ∧
    ∀ other, Swapped root other → Model.build other = Model.build root :=
  ⟨fun _ => exists_of_build, fun _ swapped => swapped.equivalent.build_eq.symm⟩

/-- Two enumerations in a group of their own. -/
def sampleEnumerations : Element :=
  ⟨"group", [], [⟨"EnumeratedType", [("Name", "E")], []⟩, ⟨"EnumeratedType", [("Name", "F")], []⟩]⟩

/-- A record in which another one is nested. -/
def sampleRecords : Element :=
  ⟨"StructuredType", [("Name", "P")], [⟨"StructuredType", [("Name", "Q")], []⟩]⟩

/-- A tree of both, a level below the root. -/
def sampleMixed (first second : Element) : Element :=
  ⟨"d", [], [⟨"import", [], []⟩, ⟨"types", [], [first, second]⟩]⟩

/-- Records come first whether they stand before the enumerations or after. -/
theorem definitions_in_document_order_sample :
    let model : Model := ⟨[.record ⟨⟨"P", []⟩, none⟩, .record ⟨⟨"Q", []⟩, none⟩,
      .enumeration ⟨"E", []⟩, .enumeration ⟨"F", []⟩]⟩
    let root := sampleMixed sampleEnumerations sampleRecords
    Model.build root = .ok model ∧
      (∃ records enumerations,
        model.definitions = records.map .record ++ enumerations.map .enumeration ∧
        List.Forall₂ DescribesRecord (Rule.record.elements root) records ∧
        List.Forall₂ DescribesEnumeration (Rule.enumeration.elements root) enumerations) ∧
      Swapped root (sampleMixed sampleRecords sampleEnumerations) ∧
      Model.build (sampleMixed sampleRecords sampleEnumerations) = .ok model := by
  intro model root
  have built : Model.build root = .ok model := by decide +kernel
  have independent : Independent sampleEnumerations sampleRecords :=
    ⟨⟨by decide, by decide⟩, ⟨by decide, by decide⟩, .inl ⟨by decide, by decide⟩⟩
  have inside : Swapped ⟨"types", [], [sampleEnumerations, sampleRecords]⟩
      ⟨"types", [], [sampleRecords, sampleEnumerations]⟩ :=
    @Swapped.here "types" [] [] [] _ _ independent
  have swapped : Swapped root (sampleMixed sampleRecords sampleEnumerations) :=
    @Swapped.within "d" [] [⟨"import", [], []⟩] [] _ _ inside
  obtain ⟨lists, anywhere⟩ := definitions_in_document_order root
  exact ⟨built, lists model built, swapped, (anywhere _ swapped).trans built⟩

end Model

end TypeDictionary
