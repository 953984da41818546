import TypeDictionary.Model.Basic
import TypeDictionary.Proofs.Identifier
import TypeDictionary.Resolved.Basic

/-!
# Well-formed types

What can be relied on in every type that comes from a dictionary, however deep one looks into it:
names are proper identifiers and distinct where they stand side by side, and every field has the
wire tag and the recipe of its own element type.

Fields and records are judged by the same predicates before and after their references are resolved.
All that differs is which recipe a single element has, so that is a parameter.
-/

namespace TypeDictionary

namespace Recipe

/-- No single element begins as an empty list. -/
theorem ofPrimitive_ne_emptySequence (kind : Primitive) : ofPrimitive kind ≠ emptySequence := by
  cases kind <;> simp [ofPrimitive]

theorem ofElement_ne_emptySequence (type : TypeRef) : ofElement type ≠ emptySequence := by
  cases type with
  | primitive kind => exact ofPrimitive_ne_emptySequence kind
  | named name => simp [ofElement]

end Recipe

/-- The recipe of a single element of a resolved type: that of a primitive kind, or an instance of
the type by its own name. -/
def FieldType.recipe : FieldType → Recipe
  | primitive kind => Recipe.ofPrimitive kind
  | builtin kind => .instanceOf kind.name
  | record type => .instanceOf type.name
  | enumeration type => .instanceOf type.name

/-- A field with a proper name, and with the wire tag and the recipe of its element type; `single`
gives the recipe of one element. Nothing is said of the element type itself. -/
structure Field.WellFormed {τ : Type} [HasTypeName τ] (single : τ → Recipe) (field : Field τ) :
    Prop where
  name : Identifier.IsProper field.name
  tag : field.tag =
    if field.isArray then WireTag.list (typeName field.type)
    else WireTag.scalar (typeName field.type)
  empty_iff : field.recipe = .emptySequence ↔ field.isArray = true
  element : field.isArray = false → field.recipe = single field.type

/-- A record with a proper name and well-formed fields with different names. -/
structure Record.WellFormed {τ : Type} [HasTypeName τ] (single : τ → Recipe) (record : Record τ) :
    Prop where
  name : Identifier.IsProper record.name
  distinct : (record.fields.map Field.name).Nodup
  fields : ∀ field ∈ record.fields, field.WellFormed single

/-- An enumeration with a proper name and members with different proper names. -/
structure Enumeration.WellFormed (enumeration : Enumeration) : Prop where
  name : Identifier.IsProper enumeration.name
  distinct : (enumeration.members.map Member.name).Nodup
  members : ∀ member ∈ enumeration.members, Identifier.IsProper member.name

/-- A definition whose record or enumeration is well formed. Its references may mean nothing. -/
def Definition.WellFormed : Definition → Prop
  | record definition => definition.toRecord.WellFormed Recipe.ofElement
  | enumeration definition => definition.WellFormed

/-- A type that is well formed all the way down: the element types of a record's fields are, too. -/
inductive FieldType.WellFormed : FieldType → Prop
  | primitive (kind : Primitive) : WellFormed (.primitive kind)
  | builtin (kind : Builtin) : WellFormed (.builtin kind)
  | record {type : Record FieldType} (sound : type.WellFormed FieldType.recipe)
      (nested : ∀ field ∈ type.fields, WellFormed field.type) : WellFormed (.record type)
  | enumeration {type : Enumeration} (sound : type.WellFormed) : WellFormed (.enumeration type)

/-- A resolved type that is well formed all the way down. -/
def ResolvedType.WellFormed (type : ResolvedType) : Prop := type.toFieldType.WellFormed

namespace Field

variable {name : String} {type : TypeRef}

theorem wellFormed_scalar (h : Identifier.IsProper name) :
    (Field.scalar name type).WellFormed Recipe.ofElement where
  name := h
  tag := rfl
  empty_iff := by
    simpa [scalar] using Recipe.ofElement_ne_emptySequence type
  element := fun _ => rfl

theorem wellFormed_array (h : Identifier.IsProper name) :
    (Field.array name type).WellFormed Recipe.ofElement where
  name := h
  tag := rfl
  empty_iff := by simp [array]
  element := fun h => nomatch h

end Field

/-- A defined type is only ever made by its name. -/
@[simp] theorem ResolvedType.recipe_toFieldType (type : ResolvedType) :
    type.toFieldType.recipe = .instanceOf type.name := by
  cases type <;> rfl

end TypeDictionary
