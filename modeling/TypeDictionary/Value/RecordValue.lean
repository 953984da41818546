import TypeDictionary.Value.Instance

/-!
# Record values

Access to the fields of a record value by name. Where several fields share a name, the first is
meant. Setting a field checks its name only: whether the value suits the field is for the codec to
say.
-/

namespace TypeDictionary

/-- A value of a record type: one value for each field, in order of declaration. -/
structure RecordValue where
  type : Record FieldType
  values : List Value
deriving Repr

/-- A field that a record does not have. -/
structure FieldNotFound where
  record : String
  field : String
deriving DecidableEq, Repr

def FieldNotFound.message (error : FieldNotFound) : String :=
  s!"{error.record} has no field named {error.field}"

namespace RecordValue

def new (type : Record FieldType) (seed : Seed) : RecordValue :=
  ⟨type, type.initialValues seed⟩

def toValue (record : RecordValue) : Value := .record record.type record.values

def indexOf (record : RecordValue) (name : String) : Except FieldNotFound Nat :=
  match record.type.index? name with
  | some place => .ok place
  | none => .error ⟨record.type.name, name⟩

def get (record : RecordValue) (name : String) : Except FieldNotFound Value := do
  let place ← record.indexOf name
  match record.values[place]? with
  | some value => return value
  | none => throw ⟨record.type.name, name⟩

/-- The record with another value for a field. -/
def set (record : RecordValue) (name : String) (value : Value) :
    Except FieldNotFound RecordValue := do
  let place ← record.indexOf name
  return { record with values := record.values.set place value }

def pairs (record : RecordValue) : List (String × Value) :=
  (record.type.fields.map Field.name).zip record.values

/-- Whether two record values are equal as values. -/
def equals (a b : RecordValue) : Bool := a.toValue.equals b.toValue

end RecordValue

def Value.record? : Value → Option RecordValue
  | .record type values => some ⟨type, values⟩
  | _ => none

end TypeDictionary
