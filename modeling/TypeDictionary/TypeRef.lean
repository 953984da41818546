import TypeDictionary.Identifier
import TypeDictionary.Primitive

/-!
# References to element types

A field names its element type by a qualified text such as `opc:Int32`. The namespace is dropped and
the rest cleaned to an identifier; what is left is a primitive kind exactly when it is the name of
one, and otherwise the name of a type that is looked for later.
-/

namespace TypeDictionary

/-- An element type as a dictionary writes it: a primitive kind, or the name of another type. -/
inductive TypeRef
  | primitive (kind : Primitive)
  | named (name : String)
deriving DecidableEq, Repr, Inhabited

namespace TypeRef

def ofIdentifier (identifier : String) : TypeRef :=
  match Primitive.ofName? identifier with
  | some kind => primitive kind
  | none => named identifier

/-- The reference that a qualified text stands for. -/
def parse (qualified : String) : TypeRef :=
  ofIdentifier (Identifier.clean (Identifier.localPart qualified))

def name : TypeRef → String
  | primitive kind => kind.name
  | named name => name

end TypeRef

end TypeDictionary
