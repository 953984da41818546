/-!
# Native element types

Two closed families of element types need no definition in a dictionary: the primitive kinds, which
have values of their own, and the structured built-ins, which other codecs handle and whose values
are opaque here. Names are case sensitive.
-/

namespace TypeDictionary

/-- The kinds that are encoded natively. -/
inductive Primitive
  | boolean
  | sbyte
  | byte
  | int16
  | uint16
  | int32
  | uint32
  | int64
  | uint64
  | float
  | double
  | string
  | dateTime
  | guid
  | byteString
  | char
  | charArray
deriving DecidableEq, Repr, Inhabited

namespace Primitive

def all : List Primitive :=
  [boolean, sbyte, byte, int16, uint16, int32, uint32, int64, uint64, float, double, string,
   dateTime, guid, byteString, char, charArray]

/-- The name of a kind in dictionaries and on the wire. -/
def name : Primitive → String
  | boolean => "Boolean"
  | sbyte => "SByte"
  | byte => "Byte"
  | int16 => "Int16"
  | uint16 => "UInt16"
  | int32 => "Int32"
  | uint32 => "UInt32"
  | int64 => "Int64"
  | uint64 => "UInt64"
  | float => "Float"
  | double => "Double"
  | string => "String"
  | dateTime => "DateTime"
  | guid => "Guid"
  | byteString => "ByteString"
  | char => "Char"
  | charArray => "CharArray"

def ofName? (name : String) : Option Primitive := all.find? fun kind => kind.name = name

/-- Whether a kind is a number of fixed width. -/
def isNumeric : Primitive → Bool
  | sbyte | byte | int16 | uint16 | int32 | uint32 | int64 | uint64 | float | double => true
  | boolean | string | dateTime | guid | byteString | char | charArray => false

theorem mem_all (kind : Primitive) : kind ∈ all := by cases kind <;> decide

end Primitive

/-- The structured types that dictionaries may refer to without defining them. -/
inductive Builtin
  | nodeId
  | expandedNodeId
  | statusCode
  | qualifiedName
  | localizedText
  | extensionObject
  | dataValue
  | variant
  | diagnosticInfo
  | xmlElement
deriving DecidableEq, Repr, Inhabited

namespace Builtin

def all : List Builtin :=
  [nodeId, expandedNodeId, statusCode, qualifiedName, localizedText, extensionObject, dataValue,
   variant, diagnosticInfo, xmlElement]

/-- The name of a built-in type in dictionaries and on the wire. -/
def name : Builtin → String
  | nodeId => "NodeId"
  | expandedNodeId => "ExpandedNodeId"
  | statusCode => "StatusCode"
  | qualifiedName => "QualifiedName"
  | localizedText => "LocalizedText"
  | extensionObject => "ExtensionObject"
  | dataValue => "DataValue"
  | variant => "Variant"
  | diagnosticInfo => "DiagnosticInfo"
  | xmlElement => "XmlElement"

def ofName? (name : String) : Option Builtin := all.find? fun kind => kind.name = name

theorem mem_all (kind : Builtin) : kind ∈ all := by cases kind <;> decide

end Builtin

end TypeDictionary
