import TypeDictionary.Journal
import TypeDictionary.Model.Build
import TypeDictionary.Resolved.Resolution

/-!
# What happens while a model is made and resolved

The events of building a model and of resolving it, up to the first fault if there is one. They
follow from the definitions and types that were made.
-/

namespace TypeDictionary

def Definition.builtEvent : Definition → Event
  | record definition => .recordBuilt definition.name definition.fields.length
  | enumeration definition => .enumerationBuilt definition.name definition.members.length

namespace Resolution

/-- The events of types that were made one after the other, after those with the names `earlier`. -/
def events (earlier : List String) : List ResolvedType → List Event
  | [] => []
  | type :: rest =>
    .typeResolved type.display ::
      ((if type.name ∈ earlier then [.definitionReplaced type.name] else []) ++
        events (type.name :: earlier) rest)

end Resolution

namespace Model

/-- The events of building the model of an element tree. -/
def buildEvents (root : Markup.Element) : List Event := (built root).map Definition.builtEvent

def resolveEvents (model : Model) (known : KnownTypes) : List Event :=
  Resolution.events [] (model.resolved known)

end Model

end TypeDictionary
