import TypeDictionary.NodeId

/-!
# Address spaces

The narrow view that a loader has of a server: three calls, each of which may fail with a reason. An
answer may depend on everything that was asked before, so a server is free to change its mind; one
that never does is stateless.
-/

namespace TypeDictionary

/-- A child of a node: its unqualified browse name and its node. -/
structure Child where
  browseName : String
  node : NodeId
deriving DecidableEq, Repr

inductive Call
  | document (node : NodeId)
  | children (node : NodeId)
  | descriptions (node : NodeId)
deriving DecidableEq, Repr

/-- A server: its answers, given the calls made before, oldest first. -/
structure AddressSpace where
  document : List Call → NodeId → Except String (List UInt8)
  children : List Call → NodeId → Except String (List Child)
  descriptions : List Call → NodeId → Except String (List NodeId)

namespace AddressSpace

/-- A server whose answers depend on nothing but the question. -/
def IsStateless (space : AddressSpace) : Prop :=
  (∀ earlier earlier' node, space.document earlier node = space.document earlier' node) ∧
  (∀ earlier earlier' node, space.children earlier node = space.children earlier' node) ∧
  ∀ earlier earlier' node, space.descriptions earlier node = space.descriptions earlier' node

end AddressSpace

end TypeDictionary
