import TypeDictionary.Recipe
import TypeDictionary.WireTag

/-!
# Records and enumerations

The same record serves before and after its references are resolved: `Field τ` and `Record τ` hold
element types of type `τ`, which is `TypeRef` in the model of a dictionary and `FieldType` once
every name has been found. What is asked of an element type to lay a record out is only its name,
which is why the layout of a record can be compared across that step.

Enumerations refer to nothing and are the same on both sides.
-/

namespace TypeDictionary

/-- Element types with a name of their own. -/
class HasTypeName (τ : Type) where
  typeName : τ → String

export HasTypeName (typeName)

instance : HasTypeName TypeRef := ⟨TypeRef.name⟩

structure Field (τ : Type) where
  name : String
  type : τ
  isArray : Bool
  recipe : Recipe
deriving DecidableEq, Repr

namespace Field

/-- A field that holds one element, with the recipe of its element type. -/
def scalar (name : String) (type : TypeRef) : Field TypeRef :=
  ⟨name, type, false, Recipe.ofElement type⟩

/-- A field that holds a list, which begins empty. -/
def array (name : String) (type : TypeRef) : Field TypeRef := ⟨name, type, true, .emptySequence⟩

def tag {τ : Type} [HasTypeName τ] (field : Field τ) : WireTag :=
  WireTag.ofElement (typeName field.type) field.isArray

end Field

/-- A record: named fields in the order in which they are encoded. -/
structure Record (τ : Type) where
  name : String
  fields : List (Field τ)
deriving DecidableEq, Repr

namespace Record

variable {τ : Type}

def field? (record : Record τ) (name : String) : Option (Field τ) :=
  record.fields.find? fun field => field.name = name

/-- The place of the first field with a name. -/
def index? (record : Record τ) (name : String) : Option Nat :=
  record.fields.findIdx? fun field => field.name = name

/-- Names and wire tags of the fields, in the order in which they are encoded. -/
def layout [HasTypeName τ] (record : Record τ) : List (String × WireTag) :=
  record.fields.map fun field => (field.name, field.tag)

end Record

structure Member where
  name : String
  value : Int64
deriving DecidableEq, Repr

/-- An enumeration: named integers in the order in which they are declared. -/
structure Enumeration where
  name : String
  members : List Member
deriving DecidableEq, Repr

namespace Enumeration

def member? (enumeration : Enumeration) (name : String) : Option Member :=
  enumeration.members.find? fun member => member.name = name

def memberByValue? (enumeration : Enumeration) (value : Int64) : Option Member :=
  enumeration.members.find? fun member => member.value = value

end Enumeration

end TypeDictionary
