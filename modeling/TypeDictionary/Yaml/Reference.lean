import TypeDictionary.Yaml.Lookup

/-!
# References

A reference stands for the node that begins behind the anchor with its number; of several such nodes
it is the last, wherever the reference stands. So a node may even hold a reference to itself. Such a
node does no harm where nothing looks into it, and what is looked into has bounds: how deep
collections nest, and how many references are followed for the size of the document.
-/

namespace TypeDictionary.Yaml

namespace Node

mutual

/-- A node and the nodes within it, in the order in which they begin. -/
def parts : Node → List Node
  | sequence items => sequence items :: partsOfItems items
  | mapping pairs => mapping pairs :: partsOfPairs pairs
  | tagged tag node => tagged tag node :: parts node
  | anchored anchor node => anchored anchor node :: parts node
  | node => [node]

def partsOfItems : List Node → List Node
  | [] => []
  | item :: rest => parts item ++ partsOfItems rest

def partsOfPairs : List (Node × Node) → List Node
  | [] => []
  | (key, value) :: rest => parts key ++ parts value ++ partsOfPairs rest

end

/-- What a node by itself adds to the size of a document: a collection has a front and an end. -/
def weight : Node → Nat
  | scalar .. | reference _ => 1
  | sequence _ | mapping _ => 2
  | tagged .. | anchored .. => 0

/-- The size of a document with the given root. -/
def size (root : Node) : Nat := root.parts.foldl (fun size part => size + part.weight) 0

def anchor? : Node → Option (Nat × Node)
  | anchored anchor node => some (anchor, node)
  | _ => none

/-- The nodes that references within a root stand for. -/
def anchors (root : Node) : List (Nat × Node) := (root.parts.filterMap anchor?).reverse

def isCollection (node : Node) : Bool :=
  match node.bare with
  | sequence _ | mapping _ => true
  | _ => false

end Node

/-- A look into nodes, which counts down how many more references may be followed. -/
abbrev Visit := StateT Nat Option

namespace Visit

def ofOption {α : Type} (value? : Option α) : Visit α := StateT.lift value?

def step : Visit Unit := do
  match ← get with
  | 0 => failure
  | left + 1 => set left

/-- The node that a node stands for. -/
def target (anchors : List (Nat × Node)) : Node → Visit Node
  | .reference anchor => do
    step
    ofOption (anchors.lookup anchor)
  | .anchored _ node => return node
  | node => return node

/-- A node in which other nodes are put for the items of a sequence or the keys and values of a
mapping. -/
def mapChildren (change : Node → Visit Node) : Node → Visit Node
  | .sequence items => .sequence <$> items.mapM change
  | .mapping pairs =>
    .mapping <$> pairs.mapM fun (key, value) => do return (← change key, ← change value)
  | .tagged tag node => .tagged tag <$> mapChildren change node
  | .anchored _ node => mapChildren change node
  | node => return node

/-- A node with what its references stand for in their places, if its collections nest no deeper
than the given depth. -/
def resolve (anchors : List (Nat × Node)) : Nat → Node → Visit Node
  | 0, node => do
    let node ← target anchors node
    if node.isCollection then failure else return node
  | depth + 1, node => do mapChildren (resolve anchors depth) (← target anchors node)

end Visit

namespace Node

/-- The greatest depth to which collections may nest where they are looked into. -/
def depthLimit : Nat := 128

/-- How many references may be followed for each unit of size. -/
def referenceLimit : Nat := 100

/-- The values that a root mapping has under some names, each of which must not stand there twice.
All keys must be texts, but nothing looks into the values under other names. -/
def fields? (names : List String) (root : Node) : Option (List (Option Node)) :=
  let anchors := root.anchors
  let visit : Visit (List (Option Node)) := do
    let entries ← (← Visit.ofOption root.pairs?).mapM fun (key, value) => do
      return (← Visit.ofOption (← Visit.target anchors key).text?, value)
    names.mapM fun name => do
      match atMostOne? ((entries.filter fun entry => entry.1 = name).map Prod.snd) with
      | none => failure
      | some none => return none
      | some (some value) => some <$> Visit.resolve anchors (depthLimit - 1) value
  visit.run' (referenceLimit * root.size)

end Node

end TypeDictionary.Yaml
