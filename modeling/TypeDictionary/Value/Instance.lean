import TypeDictionary.Value.Basic

/-!
# Instances of types

An instance of a record has the initial value of each field, and the instance of an enumeration is
its zero. Fields that hold records are instances themselves, all the way down; lists begin empty.
-/

namespace TypeDictionary

namespace Enumeration

/-- The value of a member as a value of the enumeration. -/
def valueOf? (enumeration : Enumeration) (name : String) : Option EnumValue :=
  (enumeration.member? name).map fun member =>
    ⟨enumeration.name, some member.name, member.value⟩

/-- The zero of an enumeration, named after the first member with the value zero if there is one. -/
def zero (enumeration : Enumeration) : EnumValue :=
  ⟨enumeration.name, (enumeration.memberByValue? 0).map Member.name, 0⟩

end Enumeration

/-- The value that a recipe makes; `instanceOf` gives the instances of named types. -/
def Recipe.evaluate (recipe : Recipe) (seed : Seed) (instanceOf : String → Value) : Value :=
  match recipe with
  | .null => .null
  | .newGuid => .guid (.random seed)
  | .boolean value => .boolean value
  | .now => .dateTime (.now seed)
  | .zero kind => Value.zero kind
  | .emptySequence => .sequence []
  | .instanceOf name => instanceOf name

mutual

def FieldType.instantiate (seed : Seed) : FieldType → Value
  | .primitive kind => Value.zero kind
  | .builtin _ => .null
  | .record type => .record type (Record.initialValues seed type)
  | .enumeration type => .enumeration type.zero

def Record.initialValues (seed : Seed) : Record FieldType → List Value
  | ⟨_, fields⟩ => Field.initialValues seed 0 fields

/-- The initial values of fields, the first of which has the given place. -/
def Field.initialValues (seed : Seed) (place : Nat) : List (Field FieldType) → List Value
  | [] => []
  | field :: rest =>
    Field.initialValue (seed ++ [place]) field :: Field.initialValues seed (place + 1) rest

def Field.initialValue (seed : Seed) : Field FieldType → Value
  | ⟨_, type, _, recipe⟩ => recipe.evaluate seed fun _ => FieldType.instantiate seed type

end

def ResolvedType.instantiate (type : ResolvedType) (seed : Seed) : Value :=
  type.toFieldType.instantiate seed

end TypeDictionary
