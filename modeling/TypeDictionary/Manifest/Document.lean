import TypeDictionary.Manifest.Basic
import TypeDictionary.Text.File
import TypeDictionary.Text.Numeral
import TypeDictionary.Yaml.Datum
import TypeDictionary.Yaml.Reference
import TypeDictionary.Yaml.Render

/-!
# Manifest documents

A manifest is written as a mapping with the list of its types, each of which begins with its kind.
Types are read as data: a name that looks like a number is none, so names that do are written in
quotes. A wire identifier may be left out, and so may an empty list.
-/

namespace TypeDictionary

open Yaml (Node Datum)

namespace FieldSummary

def ofDatum? (datum : Datum) : Option FieldSummary := do
  match ← datum.slots? ["name", "wire_tag"] with
  | [some name, some tag] => return ⟨← name.text?, ← tag.text?⟩
  | _ => none

def toNode (field : FieldSummary) : Node :=
  .mapping [
    (.ofString "name", .ofString field.name),
    (.ofString "wire_tag", .ofString field.tag)]

end FieldSummary

namespace Member

def ofDatum? (datum : Datum) : Option Member := do
  match ← datum.slots? ["name", "value"] with
  | [some name, some value] =>
    return ⟨← name.text?, ← Text.Numeral.toInt64? (← value.integer?)⟩
  | _ => none

def toNode (member : Member) : Node :=
  .mapping [
    (.ofString "name", .ofString member.name),
    (.ofString "value", .ofInt member.value.toInt)]

end Member

namespace Summary

def recordWord : String := "record"

def enumerationWord : String := "enum"

/-- The list that a slot holds; an empty slot holds none. -/
def listOf? {α : Type} (ofDatum? : Datum → Option α) : Option Datum → Option (List α)
  | none => some []
  | some datum => do (← datum.items?).mapM ofDatum?

/-- The identifier that a slot holds, if it does. -/
def wireIdOf? : Option Datum → Option (Option WireId)
  | none | some .null => some none
  | some datum => do return some ⟨← datum.text?⟩

/-- The type of a kind that a datum describes. -/
def ofKind? (kind : String) (datum : Datum) : Option Summary :=
  if kind = recordWord then do
    match ← datum.slots? ["name", "type_id", "fields"] with
    | [some name, id, fields] =>
      return record ⟨← name.text?, ← wireIdOf? id, ← listOf? FieldSummary.ofDatum? fields⟩
    | _ => none
  else if kind = enumerationWord then do
    match ← datum.slots? ["name", "values"] with
    | [some name, members] =>
      return enumeration ⟨← name.text?, ← listOf? Member.ofDatum? members⟩
    | _ => none
  else none

/-- The type that a node describes. Its kind is the first item of a sequence, and anywhere in a
mapping. Unlike the rest, which is read as data, the kind is taken as it is written. -/
def ofNode? : Node → Option Summary
  | .mapping pairs => do
    let keyed ← pairs.mapM fun (key, value) => do return (← Datum.ofNode? key, value)
    let (kinds, others) := keyed.partition fun pair => pair.1.isText "kind"
    match ← Yaml.atMostOne? kinds with
    | some (_, kind) =>
      let others ← others.mapM fun (key, value) => do return (key, ← Datum.ofNode? value)
      ofKind? (← kind.text?) (.table others)
    | none => none
  | .sequence (kind :: others) => do
    ofKind? (← kind.text?) (.list (← others.mapM Datum.ofNode?))
  | .tagged tag node => if tag.isNamed then none else ofNode? node
  | _ => none

def wireIdPairs : Option WireId → List (Node × Node)
  | some id => [(.ofString "type_id", .ofString id.text)]
  | none => []

def toNode : Summary → Node
  | record summary =>
    .mapping <|
      (.ofString "kind", .ofString recordWord) ::
      (.ofString "name", .ofString summary.name) ::
      wireIdPairs summary.wireId ++
      [(.ofString "fields", .sequence (summary.fields.map FieldSummary.toNode))]
  | enumeration definition =>
    .mapping [
      (.ofString "kind", .ofString enumerationWord),
      (.ofString "name", .ofString definition.name),
      (.ofString "values", .sequence (definition.members.map Member.toNode))]

end Summary

structure ManifestError where
  cause : Text.FileError
deriving DecidableEq, Repr

def ManifestError.message (error : ManifestError) : String :=
  "failed to write manifest: " ++ error.cause.message

namespace Manifest

def typesKey : String := "types"

/-- The manifest that a document's root holds. -/
def ofNode? (root : Node) : Option Manifest := do
  match ← root.fields? [typesKey] with
  | [some types] => return ⟨← (← types.items?).mapM Summary.ofNode?⟩
  | _ => none

/-- The root of a document that holds a manifest. -/
def toNode (manifest : Manifest) : Node :=
  .mapping [(.ofString typesKey, .sequence (manifest.types.map Summary.toNode))]

def ofText? (text : String) : Option Manifest := Node.ofText? text >>= ofNode?

def render (manifest : Manifest) : String := manifest.toNode.render

/-- The contents of a file that a manifest is written to. The folder of the file must exist. -/
def fileText (manifest : Manifest) (folderExists : Bool) : Except ManifestError String :=
  if folderExists then .ok manifest.render else .error ⟨.notFound⟩

end Manifest

end TypeDictionary
