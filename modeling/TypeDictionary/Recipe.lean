import TypeDictionary.TypeRef

/-!
# Recipes for initial values

A field states how its initial value is made rather than the value itself: identifiers and
timestamps are generated for each instance, and the instance of a named type can only be made once
the name has been resolved.
-/

namespace TypeDictionary

/-- How the initial value of a field is made. -/
inductive Recipe
  | null
  | newGuid
  | boolean (value : Bool)
  | now
  | zero (kind : Primitive)
  | emptySequence
  | instanceOf (name : String)
deriving DecidableEq, Repr, Inhabited

namespace Recipe

/-- The recipe of a single element of a primitive kind: absent for texts and bytes, `true` for a
truth value, generated for identifiers and timestamps, and zero for numbers. -/
def ofPrimitive : Primitive → Recipe
  | .string | .byteString | .char | .charArray => null
  | .guid => newGuid
  | .boolean => boolean true
  | .dateTime => now
  | .sbyte => zero .sbyte
  | .byte => zero .byte
  | .int16 => zero .int16
  | .uint16 => zero .uint16
  | .int32 => zero .int32
  | .uint32 => zero .uint32
  | .int64 => zero .int64
  | .uint64 => zero .uint64
  | .float => zero .float
  | .double => zero .double

def ofElement : TypeRef → Recipe
  | .primitive kind => ofPrimitive kind
  | .named name => instanceOf name

end Recipe

end TypeDictionary
