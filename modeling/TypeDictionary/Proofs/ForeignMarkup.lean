import Mathlib.Logic.Relation
import TypeDictionary.Proofs.DocumentOrder

/-!
# Foreign markup

A dictionary holds more than a model is made of: documentation, imports, groups, and attributes for
other readers. An attribute counts if it is one of the three properties, and an element if it
defines something or is an item of the element around it. Whatever else there is can be taken out of
a tree or put into it, and the model or the error is the same.

`Trimmed` takes out one piece at any place. Fields and members that are buried in a foreign subtree
go with it: they are items of their own parent alone, and that defines nothing.
-/

namespace TypeDictionary

namespace Build

open Markup (Element)

/-- A subtree that says nothing to a model, wherever it stands: no element in it, its root included,
defines anything, and its root is no item. -/
structure IsForeign (element : Element) : Prop where
  isNoItem : IsNoItem element
  lacksRecords : Lacks element .structuredType
  lacksEnumerations : Lacks element .enumeratedType

/-- A tree from which a foreign subtree, or an attribute that is no property, has been taken out. -/
inductive Trimmed : Element → Element → Prop
  | foreignSubtree {name : String} {attributes : List (String × String)}
      {before after : List Element} {child : Element} (foreign : IsForeign child) :
      Trimmed ⟨name, attributes, before ++ child :: after⟩ ⟨name, attributes, before ++ after⟩
  | foreignAttribute {name : String} {before after : List (String × String)}
      {children : List Element} {pair : String × String}
      (unread : ∀ property : Property, pair.1 ≠ property.attributeName) :
      Trimmed ⟨name, before ++ pair :: after, children⟩ ⟨name, before ++ after, children⟩
  | within {name : String} {attributes : List (String × String)} {before after : List Element}
      {child other : Element} (trimmed : Trimmed child other) :
      Trimmed ⟨name, attributes, before ++ child :: after⟩
        ⟨name, attributes, before ++ other :: after⟩

variable {rule : Rule}

theorem IsForeign.elements_eq {element : Element} (h : IsForeign element)
    (known : rule ∈ Rule.all) : rule.elements element = [] := by
  simp only [Rule.all, List.mem_cons, List.not_mem_nil, or_false] at known
  rcases known with rfl | rfl
  · exact elements_of_lacks h.lacksRecords
  · exact elements_of_lacks h.lacksEnumerations

/-- No property is read from an attribute of another name. -/
theorem sameProperties_of_unread {name : String} {before after : List (String × String)}
    {children : List Element} {pair : String × String}
    (unread : ∀ property : Property, pair.1 ≠ property.attributeName) :
    SameProperties ⟨name, before ++ pair :: after, children⟩ ⟨name, before ++ after, children⟩ := by
  intro property
  simp [property?, Element.attribute?, List.find?_append, unread property]

/-- Taking out foreign markup leaves an equivalent tree: what is read of an element and of its items
is still there, and nothing was defined in what is gone. -/
theorem Trimmed.equivalent {root other : Element} (h : Trimmed root other) :
    Equivalent root other := by
  induction h with
  | foreignSubtree foreign =>
      refine .of_same_below rfl (fun _ => rfl) ?_ ?_
      · intro rule known
        have noItem := foreign.isNoItem.name_ne known
        simp [Rule.items, Element.childrenNamed, noItem]
      · intro rule known
        simp [foreign.elements_eq known]
  | foreignAttribute unread =>
      exact .of_same_below rfl (sameProperties_of_unread unread) (fun _ _ => rfl) fun _ _ => rfl
  | within _ ih => exact ih.within

end Build

namespace Model

open Build
open Markup (Element)

/-- Trees that differ in foreign markup only, at however many places it has been taken out or put
in, have the same model or the same error. -/
theorem build_eq_of_foreign {root other : Element} (h : Relation.EqvGen Trimmed root other) :
    Model.build root = Model.build other := by
  induction h with
  | rel _ _ trimmed => exact trimmed.equivalent.build_eq
  | refl _ => rfl
  | symm _ _ _ ih => exact ih.symm
  | trans _ _ _ _ _ first second => exact first.trans second

/-- A record with something between a length field and the array that follows, and with further
attributes at the array. -/
def sampleAnnotated (between : List Element) (attributes : List (String × String)) : Element :=
  ⟨"d", [], [⟨"StructuredType", [("Name", "P")],
    [⟨"Field", [("Name", "NoOfA")], []⟩] ++ between ++
      [⟨"Field", [("Name", "A")] ++ attributes ++ [("TypeName", "Byte")], []⟩]⟩]⟩

/-- Documentation in which a field is buried. -/
def sampleDocumentation : Element := ⟨"Documentation", [], [sampleField "B" "Byte"]⟩

/-- The array stays an array, and gains no field before it, when the documentation goes and a length
in bits comes. -/
theorem build_eq_of_foreign_sample :
    let documented := sampleAnnotated [sampleDocumentation] []
    let measured := sampleAnnotated [] [("Length", "8")]
    Relation.EqvGen Trimmed documented measured ∧
      Model.build documented = Model.build measured ∧
      Model.build measured = .ok ⟨[.record ⟨⟨"P", [.array "A" (.primitive .byte)]⟩, none⟩]⟩ := by
  intro documented measured
  have foreign : IsForeign sampleDocumentation :=
    ⟨⟨by decide, by decide⟩, by decide, by decide⟩
  have unread : ∀ property : Property, "Length" ≠ property.attributeName := by
    intro property
    cases property <;> decide
  have documentation : Trimmed documented (sampleAnnotated [] []) :=
    @Trimmed.within "d" [] [] [] _ _
      (@Trimmed.foreignSubtree "StructuredType" [("Name", "P")]
        [⟨"Field", [("Name", "NoOfA")], []⟩] _ _ foreign)
  have length : Trimmed measured (sampleAnnotated [] []) :=
    @Trimmed.within "d" [] [] [] _ _
      (@Trimmed.within "StructuredType" [("Name", "P")] [⟨"Field", [("Name", "NoOfA")], []⟩] [] _ _
        (@Trimmed.foreignAttribute "Field" [("Name", "A")] [("TypeName", "Byte")] [] ("Length", "8")
          unread))
  have related : Relation.EqvGen Trimmed documented measured :=
    .trans _ _ _ (.rel _ _ documentation) (.symm _ _ (.rel _ _ length))
  exact ⟨related, build_eq_of_foreign related, by decide +kernel⟩

end Model

end TypeDictionary
