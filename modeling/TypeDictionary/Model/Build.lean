import TypeDictionary.Markup.Element
import TypeDictionary.Model.Basic
import TypeDictionary.Text.Blank
import TypeDictionary.Text.Numeral

/-!
# Models from element trees

All records of a tree come before all its enumerations, each group in document order and found at
any depth. A field whose raw name begins with `NoOf` is the length of the array that follows: it
defines nothing itself and makes the next field an array.

Building stops at the first fault. What was defined before it is still known, because each
definition is announced as it is made.
-/

namespace TypeDictionary

inductive Construct
  | structuredType
  | field
  | enumeratedType
  | enumeratedValue
deriving DecidableEq, Repr

def Construct.elementName : Construct → String
  | structuredType => "StructuredType"
  | field => "Field"
  | enumeratedType => "EnumeratedType"
  | enumeratedValue => "EnumeratedValue"

/-- The attributes that a definition is read from. -/
inductive Property
  | name
  | typeName
  | value
deriving DecidableEq, Repr

def Property.attributeName : Property → String
  | name => "Name"
  | typeName => "TypeName"
  | value => "Value"

/-- Why an element tree has no model. A text that cannot be read is no such reason: building begins
with the tree of a text that has been read, and never makes an error of reading. -/
inductive BuildError
  | missingAttribute (construct : Construct) (property : Property)
  | emptyName (construct : Construct) (raw : String)
  | invalidEnumValue (enumeration name value : String)
  | duplicateName (owner name : String)
deriving DecidableEq, Repr

def BuildError.message : BuildError → String
  | missingAttribute construct property =>
    s!"<{construct.elementName}> is missing the \x60{property.attributeName}\x60 attribute"
  | emptyName construct raw =>
    s!"<{construct.elementName}> has name \x60{raw}\x60 which sanitizes to an empty identifier"
  | invalidEnumValue enumeration name value =>
    s!"enumeration {enumeration}: value \x60{name}\x60 is not an integer: \x60{value}\x60"
  | duplicateName owner name => s!"{owner}: duplicate member name \x60{name}\x60"

namespace Build

open Markup (Element)

/-- The value of an attribute that must be there. -/
def required (element : Element) (construct : Construct) (property : Property) :
    Except BuildError String :=
  match element.attribute? property.attributeName with
  | some value => .ok value
  | none => .error (.missingAttribute construct property)

/-- The cleaned name of an element, which must have one. -/
def identifier (element : Element) (construct : Construct) : Except BuildError String := do
  let raw ← required element construct .name
  let name := Identifier.clean raw
  if name.isEmpty then throw (.emptyName construct raw)
  return name

/-- Whether a raw field name announces the length of an array. -/
def isArrayLength (raw : String) : Bool := "NoOf".toList.isPrefixOf raw.toList

/-- The fields of a record from its field elements. `pending` tells that the next field is an array,
and `fields` are those before. -/
def fields (owner : String) (pending : Bool) (fields : List (Field TypeRef)) :
    List Element → Except BuildError (List (Field TypeRef))
  | [] => .ok fields
  | element :: rest => do
    let raw ← required element .field .name
    if isArrayLength raw then Build.fields owner true fields rest
    else
      let name ← identifier element .field
      let type := TypeRef.parse (← required element .field .typeName)
      let field := if pending then Field.array name type else Field.scalar name type
      if fields.any (·.name = name) then throw (.duplicateName owner name)
      Build.fields owner false (fields ++ [field]) rest

def record (element : Element) : Except BuildError RecordDef := do
  let name ← identifier element .structuredType
  let fields ← fields name false [] (element.childrenNamed Construct.field.elementName)
  return { name, fields }

/-- The integer that the value of a member denotes, blank characters around it aside. -/
def memberValue (raw : String) : Option Int64 := Text.Numeral.int64? (Text.trim raw.toList)

/-- The members of an enumeration from its value elements. `members` are those before. -/
def members (owner : String) (members : List Member) :
    List Element → Except BuildError (List Member)
  | [] => .ok members
  | element :: rest => do
    let name ← identifier element .enumeratedValue
    let raw ← required element .enumeratedValue .value
    match memberValue raw with
    | none => throw (.invalidEnumValue owner name raw)
    | some value =>
      if members.any (·.name = name) then throw (.duplicateName owner name)
      Build.members owner (members ++ [⟨name, value⟩]) rest

def enumeration (element : Element) : Except BuildError Enumeration := do
  let name ← identifier element .enumeratedType
  let members ← members name [] (element.childrenNamed Construct.enumeratedValue.elementName)
  return ⟨name, members⟩

/-- The definitions that a tree asks for, not yet made: all records, then all enumerations. -/
def plan (root : Element) : List (Except BuildError Definition) :=
  (root.descendantsNamed Construct.structuredType.elementName).map
      (fun element => (record element).map .record) ++
    (root.descendantsNamed Construct.enumeratedType.elementName).map
      (fun element => (enumeration element).map .enumeration)

/-- The definitions before the first fault. -/
def made : List (Except BuildError Definition) → List Definition
  | .ok definition :: rest => definition :: made rest
  | _ => []

def all : List (Except BuildError Definition) → Except BuildError (List Definition)
  | [] => .ok []
  | step :: rest => do
    let definition ← step
    return definition :: (← all rest)

end Build

namespace Model

def build (root : Markup.Element) : Except BuildError Model :=
  (Build.all (Build.plan root)).map Model.mk

/-- The definitions that building makes, up to the first fault if there is one. -/
def built (root : Markup.Element) : List Definition := Build.made (Build.plan root)

end Model

end TypeDictionary
