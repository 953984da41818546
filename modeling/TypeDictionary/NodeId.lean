/-!
# Node and wire identifiers

A server renders its node identifiers itself, as in `i=93` or `ns=2;s=Motor`. The library never
looks inside: identifiers are compared as texts. The wire identifier of a type is the identifier of
the node that stands for its encoding.
-/

namespace TypeDictionary

/-- A node of a server, as the server writes it. -/
structure NodeId where
  text : String
deriving DecidableEq, Repr, Inhabited

/-- What an encoded value carries to say which type it has. -/
structure WireId where
  text : String
deriving DecidableEq, Repr, Inhabited

def NodeId.toWireId (node : NodeId) : WireId := ⟨node.text⟩

def WireId.toNodeId (id : WireId) : NodeId := ⟨id.text⟩

@[simp] theorem NodeId.toNodeId_toWireId (node : NodeId) : node.toWireId.toNodeId = node := rfl

@[simp] theorem WireId.toWireId_toNodeId (id : WireId) : id.toNodeId.toWireId = id := rfl

/-- Wire identifiers are ordered by the code points of their texts. -/
def WireId.le (a b : WireId) : Bool := decide (a.text ≤ b.text)

/-- Wire identifiers in increasing order; equal ones keep their places. -/
def WireId.sort (ids : List WireId) : List WireId := ids.mergeSort WireId.le

/-- An optional identifier as messages show it: a type registered without one is known by name
only. -/
def WireId.display : Option WireId → String
  | some id => id.text
  | none => "name only"

end TypeDictionary
