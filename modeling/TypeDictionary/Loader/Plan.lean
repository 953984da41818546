import TypeDictionary.Loader.Session
import TypeDictionary.Model.Events

/-!
# Plans

Everything that can fail about a registration happens while its plan is made: the document is
fetched, read, built and resolved against the types known by then, and the children of the node are
asked which types they describe. Making a plan works on the same session as everything else, but
leaves its registry alone.
-/

namespace TypeDictionary

/-- What the children of a node say about the types of its document: the model with identifiers
bound to its records, the names with their identifiers, and the children that name no type. -/
structure CrossReference where
  model : Model
  bound : List (String × WireId)
  mismatches : List Anomaly

namespace CrossReference

/-- What is known before any child has been asked. -/
def start (model : Model) : CrossReference := ⟨model, [], []⟩

/-- Takes in one child with the nodes that describe it. A child without descriptions is ignored, and
of several descriptions the first counts. -/
def add (found : CrossReference) (types : TypeSet) (node : NodeId) (child : Child)
    (descriptions : List NodeId) : CrossReference × List Event :=
  match descriptions with
  | [] => (found, [.childNotDescribed child.browseName])
  | target :: _ =>
    let name := Identifier.clean child.browseName
    if types.contains name then
      let id := target.toWireId
      ({ found with
          model := found.model.bind name id
          bound := found.bound ++ [(name, id)] }, [])
    else
      ({ found with mismatches := found.mismatches ++ [.notDefined name child.node] },
        [.childNotDefined name node])

def addAll (space : AddressSpace) (types : TypeSet) (node : NodeId) (found : CrossReference) :
    List Child → Action CrossReference
  | [] => return found
  | child :: rest => do
    let descriptions ←
      Action.ask .crossReference child.node (.descriptions child.node)
        fun earlier => space.descriptions earlier child.node
    let (found, events) := found.add types node child descriptions
    Action.tell events
    addAll space types node found rest

end CrossReference

structure Plan where
  node : NodeId
  types : TypeSet
  found : CrossReference

/-- Makes the plan of a node, given the types known so far. -/
def AddressSpace.plan (space : AddressSpace) (node : NodeId) : Action Plan := do
  Action.enter node .fetch
  let bytes ← Action.ask .fetch node (.document node) fun earlier => space.document earlier node
  Action.enter node .parse
  let root ← Action.lift .unreadable (Source.bytes bytes).read
  Action.enter node .buildModel
  Action.tell (Model.buildEvents root)
  let model ← Action.lift .unbuildable (Model.build root)
  Action.enter node .materialize
  let known := (← get).registry.known
  Action.tell (model.resolveEvents known)
  let types ← Action.lift .unresolvable (model.resolve known)
  Action.enter node .crossReference
  let children ←
    Action.ask .crossReference node (.children node) fun earlier => space.children earlier node
  let found ← CrossReference.addAll space types node (.start model) children
  return ⟨node, types, found⟩

end TypeDictionary
