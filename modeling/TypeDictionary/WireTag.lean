import TypeDictionary.Primitive

/-!
# Wire tags

A wire tag tells the codec how a field is laid out: the name of the element type and whether there
is a list of them. A list of characters travels as one string, so it has the tag of a string.
-/

namespace TypeDictionary

/-- The layout of one field on the wire. -/
structure WireTag where
  element : String
  isArray : Bool
deriving DecidableEq, Repr, Inhabited

namespace WireTag

def scalar (element : String) : WireTag := ⟨element, false⟩

/-- The tag of a list of elements; characters in a row are a string. -/
def list (element : String) : WireTag :=
  if element = Primitive.char.name then scalar Primitive.string.name else ⟨element, true⟩

/-- The tag of a field whose element type has the given name. -/
def ofElement (element : String) (isArray : Bool) : WireTag :=
  if isArray then list element else scalar element

def display (tag : WireTag) : String :=
  if tag.isArray then "ListOf" ++ tag.element else tag.element

end WireTag

end TypeDictionary
