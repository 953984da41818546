import TypeDictionary.Resolved.Basic
import TypeDictionary.Value.Generated
import TypeDictionary.Value.Number

/-!
# Values

The values of primitive kinds, enumerations, records and sequences, and the marker that no value is
there. A record value carries its type, with one value for each field in the order of declaration.

Comparison is that of the values: floating-point numbers compare as numbers, and two records are
equal when their types have the same name and their values are equal one by one.
-/

namespace TypeDictionary

/-- A value of an enumeration; it has no name if its integer is none of the members. -/
structure EnumValue where
  type : String
  name : Option String
  value : Int64
deriving DecidableEq, Repr

inductive Value
  | null
  | boolean (value : Bool)
  | sbyte (value : Int8)
  | byte (value : UInt8)
  | int16 (value : Int16)
  | uint16 (value : UInt16)
  | int32 (value : Int32)
  | uint32 (value : UInt32)
  | int64 (value : Int64)
  | uint64 (value : UInt64)
  | float (value : Binary32)
  | double (value : Binary64)
  | string (value : String)
  | byteString (value : List UInt8)
  | char (value : UInt8)
  | dateTime (value : Instant)
  | guid (value : Guid)
  | enumeration (value : EnumValue)
  | record (type : Record FieldType) (values : List Value)
  | sequence (values : List Value)
deriving Repr, Inhabited

namespace Value

/-- The zero of a numeric kind; other kinds have none. -/
def zero : Primitive → Value
  | .sbyte => sbyte 0
  | .byte => byte 0
  | .int16 => int16 0
  | .uint16 => uint16 0
  | .int32 => int32 0
  | .uint32 => uint32 0
  | .int64 => int64 0
  | .uint64 => uint64 0
  | .float => float .zero
  | .double => double .zero
  | .boolean | .string | .dateTime | .guid | .byteString | .char | .charArray => null

/-- A sequence of bytes, which is not the same as a byte string. -/
def ofBytes (bytes : List UInt8) : Value := sequence (bytes.map byte)

def isNull : Value → Bool
  | null => true
  | _ => false

def boolean? : Value → Option Bool
  | boolean value => some value
  | _ => none

def int32? : Value → Option Int32
  | int32 value => some value
  | _ => none

def int64? : Value → Option Int64
  | int64 value => some value
  | _ => none

def double? : Value → Option Binary64
  | double value => some value
  | _ => none

def string? : Value → Option String
  | string value => some value
  | _ => none

def sequence? : Value → Option (List Value)
  | sequence values => some values
  | _ => none

def enumeration? : Value → Option EnumValue
  | enumeration value => some value
  | _ => none

mutual

/-- Whether two values are equal as values. -/
def equals (a b : Value) : Bool :=
  match a with
  | null => match b with | null => true | _ => false
  | boolean x => match b with | boolean y => x == y | _ => false
  | sbyte x => match b with | sbyte y => x == y | _ => false
  | byte x => match b with | byte y => x == y | _ => false
  | int16 x => match b with | int16 y => x == y | _ => false
  | uint16 x => match b with | uint16 y => x == y | _ => false
  | int32 x => match b with | int32 y => x == y | _ => false
  | uint32 x => match b with | uint32 y => x == y | _ => false
  | int64 x => match b with | int64 y => x == y | _ => false
  | uint64 x => match b with | uint64 y => x == y | _ => false
  | float x => match b with | float y => x.equals y | _ => false
  | double x => match b with | double y => x.equals y | _ => false
  | string x => match b with | string y => x == y | _ => false
  | byteString x => match b with | byteString y => x == y | _ => false
  | char x => match b with | char y => x == y | _ => false
  | dateTime x => match b with | dateTime y => x == y | _ => false
  | guid x => match b with | guid y => x == y | _ => false
  | enumeration x => match b with | enumeration y => x == y | _ => false
  | record type xs => match b with
    | record other ys => type.name == other.name && equalsAll xs ys
    | _ => false
  | sequence xs => match b with | sequence ys => equalsAll xs ys | _ => false
termination_by structural a

/-- Whether two lists of values are equal one by one. -/
def equalsAll (as bs : List Value) : Bool :=
  match as with
  | [] => bs.isEmpty
  | a :: as => match bs with
    | [] => false
    | b :: bs => equals a b && equalsAll as bs
termination_by structural as

end

end Value

end TypeDictionary
