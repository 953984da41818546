import TypeDictionary.Manifest.Basic
import TypeDictionary.Proofs.Soundness

/-!
# Layouts before and after resolution

The wire tag of a field is made of the name of its element type. Manifests are written from models,
where that name is all there is, and the codec reads the tags of resolved types, where it is the own
name of the type that was found. The two agree because every type is found under its own name: an
earlier definition, a built-in, and also a known type if the known types are named so.

Only the last definition of a name has a type in the set, so only its layout can be looked up there.
-/

namespace TypeDictionary

/-- Every type is known under its own name. -/
def KnownTypes.Named (known : KnownTypes) : Prop :=
  ∀ name type, known name = some type → type.name = name

/-- Whatever is known under the name of a reference has that name. -/
def KnownTypes.NamedFor (known : KnownTypes) (ref : TypeRef) : Prop :=
  ∀ name type, ref = .named name → known name = some type → type.name = name

@[simp] theorem ResolvedType.name_toFieldType (type : ResolvedType) :
    type.toFieldType.name = type.name := by
  cases type <;> rfl

variable {known : KnownTypes} {earlier : List ResolvedType}

theorem KnownTypes.Named.namedFor (named : known.Named) (ref : TypeRef) : known.NamedFor ref :=
  fun name type _ => named name type

/-- A reference means a type of the name that it asks for. -/
theorem TypeRef.Means.name_eq {ref : TypeRef} {type : FieldType}
    (means : ref.Means known earlier type) (named : known.NamedFor ref) :
    type.name = ref.name := by
  cases means with
  | primitive kind => rfl
  | earlier _ same _ => rw [ResolvedType.name_toFieldType, same, TypeRef.name]
  | known _ found => rw [ResolvedType.name_toFieldType, named _ _ rfl found, TypeRef.name]
  | builtin _ _ same => exact same

namespace Field

theorem ResolvesTo.tag_eq {field : Field TypeRef} {resolved : Field FieldType}
    (h : field.ResolvesTo known earlier resolved) (named : known.NamedFor field.type) :
    resolved.tag = field.tag := by
  have same : typeName resolved.type = typeName field.type := h.type.name_eq named
  unfold tag
  rw [same, h.isArray]

/-- Resolved fields are laid out as the fields if the types that they find are named as asked. -/
theorem layout_eq_of_namedFor {fields : List (Field TypeRef)} {resolved : List (Field FieldType)}
    (h : List.Forall₂ (ResolvesTo known earlier) fields resolved)
    (named : ∀ field ∈ fields, known.NamedFor field.type) :
    resolved.map (fun field => (field.name, field.tag)) =
      fields.map fun field => (field.name, field.tag) := by
  induction h with
  | nil => rfl
  | cons first _ ih =>
      rw [List.forall_mem_cons] at named
      rw [List.map_cons, List.map_cons, first.name, first.tag_eq named.1, ih named.2]

theorem layout_of_resolvesTo {fields : List (Field TypeRef)} {resolved : List (Field FieldType)}
    (h : List.Forall₂ (ResolvesTo known earlier) fields resolved) (named : known.Named) :
    resolved.map (fun field => (field.name, field.tag)) =
      fields.map fun field => (field.name, field.tag) :=
  layout_eq_of_namedFor h fun field _ => named.namedFor field.type

end Field

/-- A manifest shows the tags of the layout, and nothing else of it. -/
theorem RecordDef.summary_fields (definition : RecordDef) :
    definition.fields.map Field.summary =
      definition.layout.map fun pair => ⟨pair.1, pair.2.display⟩ := by
  unfold Record.layout
  rw [List.map_map]
  rfl

namespace Model

/-- The type of the last definition of a name, if that is a record, has the names and tags of the
definition's fields for its layout. A manifest shows them in the definition's place, as the codec
uses them. -/
theorem layout_of_resolve {model : Model} {set : TypeSet} (named : known.Named)
    (h : model.resolve known = .ok set) {before after : List Definition} {definition : RecordDef}
    (split : model.definitions = before ++ .record definition :: after)
    (last : ∀ later ∈ after, later.name ≠ definition.name) :
    ∃ type, set.get? definition.name = some (.record type) ∧
      (ResolvedType.record type).layout =
        definition.fields.map (fun field => (field.name, field.tag)) ∧
      (Manifest.ofModel model).types[before.length]? =
        some (.record ⟨definition.name, definition.wireId,
          (ResolvedType.record type).layout.map fun pair => ⟨pair.1, pair.2.display⟩⟩) := by
  have complete := Resolution.complete_of_extend .empty h
  obtain ⟨type, hget, resolves⟩ := complete.latest split last
  cases resolves with
  | record fields =>
      have layout := Field.layout_of_resolvesTo fields named
      refine ⟨_, hget, layout, ?_⟩
      have same : (ResolvedType.record ⟨definition.name, _⟩).layout = definition.layout := layout
      rw [same, ← definition.summary_fields, Manifest.ofModel, split]
      simp [Definition.summary]

/-- Types that are known from elsewhere: an enumeration. -/
def palette : KnownTypes := fun name =>
  if name = "Colour" then some (.enumeration ⟨"Colour", [⟨"Red", 0⟩]⟩) else none

/-- A record that is defined twice, the second time with fields of all sorts: a list of records that
become an enumeration later, the record that it takes the place of, a built-in, a known type and a
list of characters. -/
def assorted : Model :=
  ⟨[.record ⟨⟨"P", []⟩, none⟩, .record ⟨⟨"Q", []⟩, none⟩,
    .record ⟨⟨"Q", [.array "ps" (.named "P"), .scalar "old" (.named "Q"),
      .scalar "id" (.named "NodeId"), .scalar "colour" (.named "Colour"),
      .array "text" (.primitive .char)]⟩, some ⟨"i=1"⟩⟩,
    .enumeration ⟨"P", []⟩]⟩

theorem layout_of_assorted :
    ∃ set type, assorted.resolve palette = .ok set ∧ set.get? "Q" = some (.record type) ∧
      (ResolvedType.record type).layout =
        [("ps", ⟨"P", true⟩), ("old", ⟨"Q", false⟩), ("id", ⟨"NodeId", false⟩),
          ("colour", ⟨"Colour", false⟩), ("text", ⟨"String", false⟩)] := by
  have named : palette.Named := by
    intro name type found
    unfold palette at found
    split at found
    · rename_i same
      cases found
      exact same.symm
    · cases found
  obtain ⟨set, hset⟩ : ∃ set, assorted.resolve palette = .ok set := ⟨_, rfl⟩
  obtain ⟨type, found, layout, _⟩ := @layout_of_resolve palette assorted set named hset
    (assorted.definitions.take 2) [.enumeration ⟨"P", []⟩] _ rfl (by decide)
  exact ⟨set, type, hset, found, layout.trans (by decide)⟩

end Model

end TypeDictionary
