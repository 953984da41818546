import TypeDictionary.Model.Basic
import TypeDictionary.Resolved.TypeSet

/-!
# Resolution of references

The definitions of a model are resolved in order. A reference by name means the latest earlier
definition of the model, else a type known from outside, else a structured built-in; primitive kinds
consult none of these. One reference that means nothing discards the whole model.

A field keeps the type it was given even if its name is defined again later on.
-/

namespace TypeDictionary

abbrev KnownTypes := String → Option ResolvedType

/-- No types are known but the native ones. -/
def KnownTypes.none : KnownTypes := fun _ => Option.none

/-- A reference that means nothing: the record and field it stands in, and the name it asks for. -/
structure UnresolvedReference where
  record : String
  field : String
  type : String
deriving DecidableEq, Repr

def UnresolvedReference.message (error : UnresolvedReference) : String :=
  s!"{error.record}.{error.field}: unresolved type reference \x60{error.type}\x60"

/-- What a reference means after some types of its model are done. -/
def TypeRef.resolve? (known : KnownTypes) (done : TypeSet) : TypeRef → Option FieldType
  | primitive kind => some (.primitive kind)
  | named name =>
    match done.get? name <|> known name with
    | some type => some type.toFieldType
    | none => (Builtin.ofName? name).map .builtin

/-- A field with its element type resolved; `record` is the name of its record. -/
def Field.resolve (known : KnownTypes) (done : TypeSet) (record : String) (field : Field TypeRef) :
    Except UnresolvedReference (Field FieldType) :=
  match field.type.resolve? known done with
  | some type => .ok { field with type }
  | none => .error ⟨record, field.name, field.type.name⟩

/-- Fields with their element types resolved, or the first that has none. -/
def Field.resolveAll (known : KnownTypes) (done : TypeSet) (record : String) :
    List (Field TypeRef) → Except UnresolvedReference (List (Field FieldType))
  | [] => .ok []
  | field :: rest => do
    let resolved ← field.resolve known done record
    return resolved :: (← resolveAll known done record rest)

def Definition.resolve (known : KnownTypes) (done : TypeSet) :
    Definition → Except UnresolvedReference ResolvedType
  | record definition => do
    let fields ← Field.resolveAll known done definition.name definition.fields
    return .record ⟨definition.name, fields⟩
  | enumeration definition => .ok (.enumeration definition)

namespace Resolution

/-- Resolves definitions one after the other, each after those before it. -/
def extend (known : KnownTypes) (done : TypeSet) :
    List Definition → Except UnresolvedReference TypeSet
  | [] => .ok done
  | definition :: rest => do extend known (done.insert (← definition.resolve known done)) rest

/-- The types that are resolved before the first reference that means nothing. -/
def made (known : KnownTypes) (done : TypeSet) : List Definition → List ResolvedType
  | [] => []
  | definition :: rest =>
    match definition.resolve known done with
    | .ok type => type :: made known (done.insert type) rest
    | .error _ => []

end Resolution

namespace Model

def resolve (model : Model) (known : KnownTypes) : Except UnresolvedReference TypeSet :=
  Resolution.extend known .empty model.definitions

/-- The types that resolution makes, up to the first reference that means nothing. -/
def resolved (model : Model) (known : KnownTypes) : List ResolvedType :=
  Resolution.made known .empty model.definitions

end Model

end TypeDictionary
