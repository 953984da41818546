import TypeDictionary.Record

/-!
# Resolved types

Once every reference of a dictionary has been found, a field holds its element type itself: a
primitive kind, a built-in, or a complete record or enumeration. Such types are finite trees, and
two of them are equal exactly when they are written alike all the way down.
-/

namespace TypeDictionary

/-- The element type of a field, with nothing left to look up. -/
inductive FieldType
  | primitive (kind : Primitive)
  | builtin (kind : Builtin)
  | record (type : Record FieldType)
  | enumeration (type : Enumeration)
deriving Repr

namespace FieldType

def name : FieldType → String
  | primitive kind => kind.name
  | builtin kind => kind.name
  | record type => type.name
  | enumeration type => type.name

end FieldType

instance : HasTypeName FieldType := ⟨FieldType.name⟩

namespace FieldType

mutual

/-- Equality of element types is decided down to the primitive kinds. -/
def decEq (a b : FieldType) : Decidable (a = b) :=
  match a with
  | primitive k => match b with
    | primitive l => decidable_of_iff (k = l) (by simp)
    | builtin _ => isFalse (by simp)
    | record _ => isFalse (by simp)
    | enumeration _ => isFalse (by simp)
  | builtin k => match b with
    | primitive _ => isFalse (by simp)
    | builtin l => decidable_of_iff (k = l) (by simp)
    | record _ => isFalse (by simp)
    | enumeration _ => isFalse (by simp)
  | record r => match b with
    | primitive _ => isFalse (by simp)
    | builtin _ => isFalse (by simp)
    | record s => match decEqRecord r s with
      | isTrue h => isTrue (by simp [h])
      | isFalse h => isFalse (by simp [h])
    | enumeration _ => isFalse (by simp)
  | enumeration d => match b with
    | primitive _ => isFalse (by simp)
    | builtin _ => isFalse (by simp)
    | record _ => isFalse (by simp)
    | enumeration e => decidable_of_iff (d = e) (by simp)
termination_by structural a

def decEqRecord (a b : Record FieldType) : Decidable (a = b) :=
  match a with
  | ⟨n, fs⟩ => match b with
    | ⟨m, gs⟩ => match decEqFields fs gs with
      | isTrue h => decidable_of_iff (n = m) (by simp [h])
      | isFalse h => isFalse (by simp [h])
termination_by structural a

def decEqFields (a b : List (Field FieldType)) : Decidable (a = b) :=
  match a with
  | [] => match b with
    | [] => isTrue rfl
    | _ :: _ => isFalse (by simp)
  | f :: fs => match b with
    | [] => isFalse (by simp)
    | g :: gs => match decEqField f g with
      | isTrue h => match decEqFields fs gs with
        | isTrue k => isTrue (by simp [h, k])
        | isFalse k => isFalse (by simp [k])
      | isFalse h => isFalse (by simp [h])
termination_by structural a

def decEqField (a b : Field FieldType) : Decidable (a = b) :=
  match a with
  | ⟨n, t, i, r⟩ => match b with
    | ⟨m, u, j, q⟩ => match decEq t u with
      | isTrue h => decidable_of_iff (n = m ∧ i = j ∧ r = q) (by simp [h])
      | isFalse h => isFalse (by simp [h])
termination_by structural a

end

instance : DecidableEq FieldType := decEq

end FieldType

/-- A type that a dictionary defines, with all its references resolved. -/
inductive ResolvedType
  | record (type : Record FieldType)
  | enumeration (type : Enumeration)
deriving DecidableEq, Repr

namespace ResolvedType

def name : ResolvedType → String
  | record type => type.name
  | enumeration type => type.name

/-- The type as the element type of a field. -/
def toFieldType : ResolvedType → FieldType
  | record type => .record type
  | enumeration type => .enumeration type

def record? : ResolvedType → Option (Record FieldType)
  | record type => some type
  | enumeration _ => none

def enumeration? : ResolvedType → Option Enumeration
  | record _ => none
  | enumeration type => some type

/-- Names and wire tags of the fields in encoding order. An enumeration has none: it is encoded as a
plain integer. -/
def layout : ResolvedType → List (String × WireTag)
  | record type => type.layout
  | enumeration _ => []

def display : ResolvedType → String
  | record type => "record " ++ type.name
  | enumeration type => "enum " ++ type.name

end ResolvedType

end TypeDictionary
