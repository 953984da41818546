import Mathlib.Data.List.Forall2
import TypeDictionary.Proofs.Acceptance
import TypeDictionary.Proofs.TypeRef

/-!
# What a model depends on

Of an element three attributes count, and of a name or the name of a type no more than cleaning
leaves of it. `read` gives that canonical form, and `identifier_eq` and `fields_cons` say that
nothing else of a name is ever asked for. So elements with the same properties define the same if
their items have the same properties, one by one.

`Equivalent` says so of whole trees: the elements in them that define something are alike in the
same order. What stands around a tree keeps it, so a tree can be put in the place of an equivalent
one anywhere.
-/

namespace TypeDictionary

namespace Property

/-- What counts of the value of a property: what a name is cleaned to, the name of the type that a
type name refers to, and any other value as it is. -/
def canonical : Property → String → String
  | name, raw => Identifier.clean raw
  | typeName, raw => (TypeRef.parse raw).name
  | value, raw => raw

theorem canonical_canonical (property : Property) (raw : String) :
    property.canonical (property.canonical raw) = property.canonical raw := by
  cases property with
  | name => rw [canonical, canonical, Identifier.clean_clean]
  | typeName => rw [canonical, canonical, TypeRef.parse_name_parse]
  | value => rfl

end Property

namespace Build

open Fallible
open Markup (Element)

/-- A property of an element in canonical form, if the element has it. -/
def property? (element : Element) (property : Property) : Option String :=
  (element.attribute? property.attributeName).map property.canonical

/-- A property in canonical form, which must be there. -/
def read (element : Element) (construct : Construct) (property : Property) :
    Except BuildError String :=
  (required element construct property).map property.canonical

/-- Whether two elements have the same properties in canonical form. -/
def SameProperties (first second : Element) : Prop :=
  ∀ property, property? first property = property? second property

/-- Cleaning a field name does not change whether it announces the length of an array. -/
theorem isArrayLength_clean (raw : String) :
    isArrayLength (Identifier.clean raw) = isArrayLength raw := by
  -- Decided letter by letter: the quantifiers as they stand may be decided over all characters.
  have legal : Alphabet.unicode.IsLegal "NoOf".toList := by
    constructor
    · exact List.all_eq_true.mp (by decide +kernel)
    · rintro c ⟨⟩
      decide +kernel
  have plain : '_' ∉ "NoOf".toList := by decide
  rw [Bool.eq_iff_iff, isArrayLength, isArrayLength, List.isPrefixOf_iff_prefix,
    List.isPrefixOf_iff_prefix, Identifier.toList_clean, Alphabet.prefix_clean_iff _ legal plain]

theorem read_eq (element : Element) (construct : Construct) (property : Property) :
    read element construct property =
      match property? element property with
      | some value => .ok value
      | none => .error (.missingAttribute construct property) := by
  unfold read required property?
  cases element.attribute? property.attributeName <;> rfl

/-- An element has the identifier that its name is cleaned to. If none is left its name was empty,
so the error does not depend on how the name is written either. -/
theorem identifier_eq (element : Element) (construct : Construct) :
    identifier element construct = (do
      let name ← read element construct .name
      if name.isEmpty then throw (.emptyName construct "")
      return name) := by
  rw [identifier, read, map_bind]
  congr 1
  funext raw
  by_cases empty : raw = ""
  · rw [empty]
    rfl
  · have nonempty : ¬(Identifier.clean raw).isEmpty = true := by
      simpa [Identifier.clean_eq_empty_iff] using empty
    simp only [Property.canonical, nonempty]
    rfl

/-- One turn over a field element, told by its properties in canonical form. -/
theorem fields_cons {owner : String} {pending : Bool} {earlier : List (Field TypeRef)}
    {element : Element} {rest : List Element} :
    Build.fields owner pending earlier (element :: rest) = (do
      let name ← read element .field .name
      if isArrayLength name then Build.fields owner true earlier rest
      else
        let name ← identifier element .field
        let type ← read element .field .typeName
        let field := if pending then Field.array name (.ofIdentifier type)
          else Field.scalar name (.ofIdentifier type)
        if earlier.any (·.name = name) then throw (.duplicateName owner name)
        Build.fields owner false (earlier ++ [field]) rest) := by
  rw [Build.fields]
  simp only [read, map_bind, Property.canonical, isArrayLength_clean,
    TypeRef.ofIdentifier_name_parse]

section Congruence

variable {first second : Element}

namespace SameProperties

theorem read_eq (h : SameProperties first second) (construct : Construct) (property : Property) :
    read first construct property = read second construct property := by
  rw [Build.read_eq, Build.read_eq, h property]

theorem identifier_eq (h : SameProperties first second) (construct : Construct) :
    identifier first construct = identifier second construct := by
  rw [Build.identifier_eq, Build.identifier_eq, h.read_eq]

/-- A value is canonical as it is. -/
theorem value_eq (h : SameProperties first second) (construct : Construct) :
    required first construct .value = required second construct .value := by
  have asItIs : Property.value.canonical = id := rfl
  have same : first.attribute? Property.value.attributeName =
      second.attribute? Property.value.attributeName := by
    simpa only [property?, asItIs, Option.map_id, id] using h .value
  rw [required, required, same]

theorem refl (element : Element) : SameProperties element element := fun _ => rfl

end SameProperties

variable {elements others : List Element}

theorem fields_congr (h : List.Forall₂ SameProperties elements others) (owner : String)
    (pending : Bool) (earlier : List (Field TypeRef)) :
    Build.fields owner pending earlier elements = Build.fields owner pending earlier others := by
  induction h generalizing pending earlier with
  | nil => rfl
  | cons same _ ih =>
      rw [fields_cons, fields_cons]
      simp only [same.read_eq, same.identifier_eq, ih]

theorem members_congr (h : List.Forall₂ SameProperties elements others) (owner : String)
    (earlier : List Member) :
    Build.members owner earlier elements = Build.members owner earlier others := by
  induction h generalizing earlier with
  | nil => rfl
  | cons same _ ih =>
      rw [Build.members, Build.members]
      simp only [same.identifier_eq, same.value_eq, ih]

namespace Rule

/-- Elements that a rule cannot tell apart: they and their items have the same properties. -/
structure Alike (rule : Rule) (first second : Element) : Prop where
  properties : SameProperties first second
  items : List.Forall₂ SameProperties (rule.items first) (rule.items second)

theorem Alike.refl (rule : Rule) (element : Element) : rule.Alike element element where
  properties := .refl element
  items := List.forall₂_same.mpr fun item _ => .refl item

/-- The rules that a model is built by. -/
def all : List Rule := [record, enumeration]

/-- The elements of a tree that define something are its root, if it does, and those of its
children. -/
theorem elements_eq (rule : Rule) (element : Element) :
    rule.elements element =
      (if element.name = rule.definition.elementName then [element] else []) ++
        element.children.flatMap rule.elements := by
  unfold elements
  rw [Element.preorder_eq, Element.preorderAll_eq_flatMap, List.filter_cons, List.filter_flatMap]
  by_cases named : element.name = rule.definition.elementName
  · simp [named]
  · simp [named]

end Rule

theorem record_congr (h : Rule.record.Alike first second) : record first = record second := by
  have sameFields (owner : String) :
      Build.fields owner false [] (first.childrenNamed Construct.field.elementName) =
        Build.fields owner false [] (second.childrenNamed Construct.field.elementName) :=
    fields_congr h.items owner false []
  unfold record
  simp only [h.properties.identifier_eq, sameFields]

theorem enumeration_congr (h : Rule.enumeration.Alike first second) :
    enumeration first = enumeration second := by
  have sameMembers (owner : String) :
      Build.members owner [] (first.childrenNamed Construct.enumeratedValue.elementName) =
        Build.members owner [] (second.childrenNamed Construct.enumeratedValue.elementName) :=
    members_congr h.items owner []
  unfold enumeration
  simp only [h.properties.identifier_eq, sameMembers]

/-- Trees that mean the same to a model, wherever they stand: they look the same to their parent,
and the elements in them that define something are alike in the same order. -/
structure Equivalent (first second : Element) : Prop where
  name_eq : first.name = second.name
  properties : SameProperties first second
  definitions : ∀ rule ∈ Rule.all, List.Forall₂ rule.Alike (rule.elements first)
    (rule.elements second)

namespace Equivalent

theorem refl (element : Element) : Equivalent element element where
  name_eq := rfl
  properties := .refl element
  definitions := fun rule _ => List.forall₂_same.mpr fun definition _ => .refl rule definition

/-- An element is changed to an equivalent one by anything that leaves its name and properties, the
properties of its items, and what there is to define below it. -/
theorem of_below (name_eq : first.name = second.name) (properties : SameProperties first second)
    (items : ∀ rule ∈ Rule.all, List.Forall₂ SameProperties (rule.items first) (rule.items second))
    (below : ∀ rule ∈ Rule.all, List.Forall₂ rule.Alike (first.children.flatMap rule.elements)
      (second.children.flatMap rule.elements)) : Equivalent first second where
  name_eq := name_eq
  properties := properties
  definitions := by
    intro rule known
    rw [rule.elements_eq, rule.elements_eq, name_eq]
    refine List.rel_append ?_ (below rule known)
    split
    · exact .cons ⟨properties, items rule known⟩ .nil
    · exact .nil

/-- Equivalent children can take the place of the children of an element. -/
theorem of_children (name_eq : first.name = second.name) (properties : SameProperties first second)
    (children : List.Forall₂ Equivalent first.children second.children) :
    Equivalent first second := by
  refine of_below name_eq properties ?_ ?_
  · intro rule _
    have items := List.rel_filter (p := fun child : Element => child.name = rule.item.elementName)
      (q := fun child : Element => child.name = rule.item.elementName)
      (fun child other same => by simp [same.name_eq]) children
    exact items.imp fun _ _ same => same.properties
  · intro rule known
    exact List.rel_flatMap children fun _ _ same => same.definitions rule known

/-- An element is changed to an equivalent one by anything that leaves its name, its properties, its
items and what there is to define below it as they are. -/
theorem of_same_below (name_eq : first.name = second.name)
    (properties : SameProperties first second)
    (items : ∀ rule ∈ Rule.all, rule.items first = rule.items second)
    (below : ∀ rule ∈ Rule.all, first.children.flatMap rule.elements =
      second.children.flatMap rule.elements) : Equivalent first second := by
  refine of_below name_eq properties ?_ ?_
  · intro rule known
    rw [items rule known]
    exact List.forall₂_same.mpr fun item _ => .refl item
  · intro rule known
    rw [below rule known]
    exact List.forall₂_same.mpr fun definition _ => .refl rule definition

/-- A tree can be put in the place of an equivalent one. -/
theorem within {name : String} {attributes : List (String × String)} {before after : List Element}
    (h : Equivalent first second) :
    Equivalent ⟨name, attributes, before ++ first :: after⟩
      ⟨name, attributes, before ++ second :: after⟩ := by
  have same (children : List Element) : List.Forall₂ Equivalent children children :=
    List.forall₂_same.mpr fun child _ => .refl child
  exact .of_children rfl (fun _ => rfl) (List.rel_append (same _) (.cons h (same _)))

theorem plan_eq (h : Equivalent first second) : plan first = plan second := by
  have records := h.definitions Rule.record (by simp [Rule.all])
  have enumerations := h.definitions Rule.enumeration (by simp [Rule.all])
  have sameRecords := List.rel_map (P := Eq)
    (fun _ _ same => congrArg (Except.map Definition.record) (record_congr same)) records
  have sameEnumerations := List.rel_map (P := Eq)
    (fun _ _ same => congrArg (Except.map Definition.enumeration) (enumeration_congr same))
    enumerations
  rw [List.forall₂_eq_eq_eq] at sameRecords sameEnumerations
  rw [Build.plan_eq, Build.plan_eq, sameRecords, sameEnumerations]

/-- Equivalent trees have the same model, or the same error. -/
theorem build_eq (h : Equivalent first second) : Model.build first = Model.build second := by
  rw [Model.build, Model.build, h.plan_eq]

end Equivalent

end Congruence

end Build

end TypeDictionary
