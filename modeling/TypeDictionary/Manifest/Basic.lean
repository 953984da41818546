import TypeDictionary.Model.Basic

/-!
# Manifests

A manifest is a summary of a model for people and archives: every record with its fields, wire tags
and wire identifier, and every enumeration with its members, in the order of the model.
-/

namespace TypeDictionary

/-- A field of a manifest: its name, and its wire tag as it is displayed. -/
structure FieldSummary where
  name : String
  tag : String
deriving DecidableEq, Repr

structure RecordSummary where
  name : String
  wireId : Option WireId
  fields : List FieldSummary
deriving DecidableEq, Repr

inductive Summary
  | record (summary : RecordSummary)
  | enumeration (definition : Enumeration)
deriving DecidableEq, Repr

def Summary.name : Summary → String
  | record summary => summary.name
  | enumeration definition => definition.name

def Field.summary (field : Field TypeRef) : FieldSummary := ⟨field.name, field.tag.display⟩

def Definition.summary : Definition → Summary
  | record definition =>
    .record ⟨definition.name, definition.wireId, definition.fields.map Field.summary⟩
  | enumeration definition => .enumeration definition

/-- The types of one model. -/
structure Manifest where
  types : List Summary
deriving DecidableEq, Repr

namespace Manifest

def ofModel (model : Model) : Manifest := ⟨model.definitions.map Definition.summary⟩

/-- The first type with a name. -/
def get? (manifest : Manifest) (name : String) : Option Summary :=
  manifest.types.find? fun summary => summary.name = name

end Manifest

end TypeDictionary
