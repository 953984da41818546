import TypeDictionary.Proofs.Dependence

/-!
# Trees with cleaned names

A dictionary may be rewritten before it is read: every name as the identifier that it is cleaned to,
every type name without its namespace. The model, or the error, is the same as before, whatever the
names were. Cleaning what is clean changes nothing, and a cleaned field name announces the length of
an array only if the name did so before.
-/

namespace TypeDictionary

namespace Build

open Markup (Element)

/-- An attribute with its value rewritten, if it is a name or the name of a type. -/
def normalizeAttribute (pair : String × String) : String × String :=
  if pair.1 = Property.name.attributeName then (pair.1, Identifier.clean pair.2)
  else if pair.1 = Property.typeName.attributeName then (pair.1, (TypeRef.parse pair.2).name)
  else pair

mutual

/-- A tree with all its names and type names rewritten. -/
def normalize : Element → Element
  | ⟨name, attributes, children⟩ =>
    ⟨name, attributes.map normalizeAttribute, normalizeAll children⟩

def normalizeAll : List Element → List Element
  | [] => []
  | element :: rest => normalize element :: normalizeAll rest

end

theorem fst_normalizeAttribute (pair : String × String) :
    (normalizeAttribute pair).1 = pair.1 := by
  unfold normalizeAttribute
  split
  · rfl
  · split <;> rfl

theorem normalizeAttribute_property (property : Property) (value : String) :
    normalizeAttribute (property.attributeName, value) =
      (property.attributeName, property.canonical value) := by
  cases property <;> rfl

theorem attribute?_normalize (element : Element) (property : Property) :
    (normalize element).attribute? property.attributeName =
      (element.attribute? property.attributeName).map property.canonical := by
  obtain ⟨name, attributes, children⟩ := element
  simp only [normalize, Element.attribute?, List.find?_map, Function.comp_def,
    fst_normalizeAttribute, Option.map_map]
  -- The attribute that is found has the name of the property.
  cases found : attributes.find? fun pair => pair.1 = property.attributeName with
  | none => rfl
  | some pair =>
      obtain ⟨key, value⟩ := pair
      obtain rfl : key = property.attributeName := by simpa using List.find?_some found
      simp only [Option.map_some, normalizeAttribute_property]

theorem sameProperties_normalize (element : Element) :
    SameProperties element (normalize element) := by
  intro property
  rw [property?, property?, attribute?_normalize, Option.map_map]
  congr 1
  funext raw
  exact (property.canonical_canonical raw).symm

mutual

theorem equivalent_normalize : (element : Element) → Equivalent element (normalize element)
  | ⟨name, attributes, children⟩ =>
    .of_children rfl (sameProperties_normalize ⟨name, attributes, children⟩)
      (forall₂_normalizeAll children)

theorem forall₂_normalizeAll : (elements : List Element) →
    List.Forall₂ Equivalent elements (normalizeAll elements)
  | [] => .nil
  | element :: rest => .cons (equivalent_normalize element) (forall₂_normalizeAll rest)

end

end Build

/-- A tree has the same model, or fails with the same error, once all its names and type names have
been rewritten as the identifiers that they stand for. -/
theorem Model.build_normalize (root : Markup.Element) :
    Model.build (Build.normalize root) = Model.build root :=
  (Build.equivalent_normalize root).build_eq.symm

end TypeDictionary
