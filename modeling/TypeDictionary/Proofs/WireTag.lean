import Mathlib.Data.List.Find
import TypeDictionary.Manifest.Basic
import TypeDictionary.Model.Build

/-!
# What a displayed wire tag tells

A wire tag is displayed as its element name, with `ListOf` in front for a list. Nothing marks where
the prefix ends, and a dictionary may define a type of any name. The text of a list is therefore
also that of a single element of the type that is named so, and this is the only way in which two
different tags look the same. No primitive kind is named like a list, so the single element is
always of a type that the dictionary refers to by name.
-/

namespace TypeDictionary

namespace WireTag

/-- A list that looks like a single element of a type whose name is the text of the list. -/
def LooksLike (list single : WireTag) : Prop :=
  list.isArray ∧ single = scalar list.display

theorem display_eq_iff (tag other : WireTag) :
    tag.display = other.display ↔ tag = other ∨ tag.LooksLike other ∨ other.LooksLike tag := by
  obtain ⟨element, isArray⟩ := tag
  obtain ⟨otherElement, otherIsArray⟩ := other
  cases isArray <;> cases otherIsArray <;> simp [display, LooksLike, scalar, eq_comm]

end WireTag

theorem Primitive.name_ne_listOf (kind : Primitive) (element : String) :
    kind.name ≠ "ListOf" ++ element := by
  intro same
  have initials := congrArg (fun name => name.toList.take 6) same
  cases kind <;> simp [name] at initials

namespace Field

/-- A field that holds a list, other than of characters, while the other field holds one element of
the type that is named as the list is displayed. -/
structure ListedAs (field other : Field TypeRef) : Prop where
  array : field.isArray = true
  notText : field.type.name ≠ Primitive.char.name
  single : other.isArray = false
  named : other.type = .named ("ListOf" ++ field.type.name)

theorem tag_scalar {field : Field TypeRef} (h : field.isArray = false) :
    field.tag = .scalar field.type.name := by
  rw [tag, h]
  rfl

theorem tag_text {field : Field TypeRef} (h : field.isArray = true)
    (text : field.type.name = Primitive.char.name) :
    field.tag = .scalar Primitive.string.name := by
  rw [tag, h]
  exact if_pos text

theorem tag_array {field : Field TypeRef} (h : field.isArray = true)
    (notText : field.type.name ≠ Primitive.char.name) :
    field.tag = ⟨field.type.name, true⟩ := by
  rw [tag, h]
  exact if_neg notText

/-- The tag of a field is that of a list iff the field holds a list other than of characters. -/
theorem isArray_tag_iff {field : Field TypeRef} :
    field.tag.isArray = true ↔
      field.isArray = true ∧ field.type.name ≠ Primitive.char.name := by
  cases array : field.isArray with
  | false => simp [tag_scalar array, WireTag.scalar]
  | true =>
      by_cases text : field.type.name = Primitive.char.name
      · simp [tag_text array text, WireTag.scalar, text]
      · simp [tag_array array text, text]

theorem name_eq_listOf_iff {ref : TypeRef} {element : String} :
    ref.name = "ListOf" ++ element ↔ ref = .named ("ListOf" ++ element) := by
  cases ref with
  | primitive kind => simp [TypeRef.name, kind.name_ne_listOf]
  | named name => simp [TypeRef.name]

theorem tag_eq_listOf_iff {field : Field TypeRef} {element : String} :
    field.tag = .scalar ("ListOf" ++ element) ↔
      field.isArray = false ∧ field.type = .named ("ListOf" ++ element) := by
  cases array : field.isArray with
  | false => simp [tag_scalar array, WireTag.scalar, name_eq_listOf_iff]
  | true =>
      by_cases text : field.type.name = Primitive.char.name
      · simp [tag_text array text, WireTag.scalar, Primitive.string.name_ne_listOf]
      · simp [tag_array array text, WireTag.scalar]

/-- The tag of a field looks like that of another just when the field is listed as the other. -/
theorem looksLike_iff {field other : Field TypeRef} :
    field.tag.LooksLike other.tag ↔ field.ListedAs other := by
  constructor
  · rintro ⟨array, same⟩
    obtain ⟨isArray, notText⟩ := isArray_tag_iff.mp array
    rw [tag_array isArray notText, WireTag.display, if_pos rfl] at same
    obtain ⟨single, named⟩ := tag_eq_listOf_iff.mp same
    exact ⟨isArray, notText, single, named⟩
  · intro listed
    refine ⟨isArray_tag_iff.mpr ⟨listed.array, listed.notText⟩, ?_⟩
    rw [tag_array listed.array listed.notText, WireTag.display, if_pos rfl]
    exact tag_eq_listOf_iff.mpr ⟨listed.single, listed.named⟩

/-- Fields have the same displayed tag just when they have the same tag, or one holds a list and the
other one element of the type that is named as the list is displayed. -/
theorem display_tag_eq_iff (field other : Field TypeRef) :
    field.tag.display = other.tag.display ↔
      field.tag = other.tag ∨ field.ListedAs other ∨ other.ListedAs field := by
  rw [WireTag.display_eq_iff, looksLike_iff, looksLike_iff]

end Field

namespace Model

open Markup (Element)

/-- A record with a list of bytes and one element of a type that is named `ListOfByte`. -/
def sampleListed : Element :=
  ⟨"d", [], [⟨"StructuredType", [("Name", "ListOfByte")], []⟩,
    ⟨"StructuredType", [("Name", "P")],
      [⟨"Field", [("Name", "NoOfa"), ("TypeName", "Int32")], []⟩,
        ⟨"Field", [("Name", "a"), ("TypeName", "Byte")], []⟩,
        ⟨"Field", [("Name", "b"), ("TypeName", "ListOfByte")], []⟩]⟩]⟩

/-- A dictionary can therefore have two fields with different tags that a manifest shows alike. -/
theorem tags_shown_alike :
    ∃ (model : Model) (definition : RecordDef) (field other : Field TypeRef),
      Model.build sampleListed = .ok model ∧ .record definition ∈ model.definitions ∧
      field ∈ definition.fields ∧ other ∈ definition.fields ∧
      field.tag.display = other.tag.display ∧ field.tag ≠ other.tag := by
  let field : Field TypeRef := .array "a" (.primitive .byte)
  let other : Field TypeRef := .scalar "b" (.named "ListOfByte")
  let definition : RecordDef := ⟨⟨"P", [field, other]⟩, none⟩
  have built : Model.build sampleListed =
      .ok ⟨[.record ⟨⟨"ListOfByte", []⟩, none⟩, .record definition]⟩ := by decide +kernel
  exact ⟨_, definition, field, other, built, by simp, by simp [definition], by simp [definition],
    by decide, by decide⟩

end Model

end TypeDictionary
