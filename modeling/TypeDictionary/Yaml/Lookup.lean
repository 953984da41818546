import TypeDictionary.Yaml.Kind
import TypeDictionary.Yaml.Node

/-!
# Looking into nodes

What a node gives to a reader that knows what to expect. Tags and anchors are looked through: a text
takes any scalar as it is written, and a list or a mapping without content also stands where nothing
is written. A truth value takes the words for it if they are written plain, or as a literal block
whose tag says that it is one.
-/

namespace TypeDictionary.Yaml

/-- The only one of some values, if there is one; several are refused. -/
def atMostOne? {α : Type} : List α → Option (Option α)
  | [] => some none
  | [value] => some (some value)
  | _ => none

@[simp] theorem atMostOne?_nil {α : Type} : atMostOne? ([] : List α) = some none := rfl

@[simp] theorem atMostOne?_singleton {α : Type} (value : α) :
    atMostOne? [value] = some (some value) := rfl

namespace Node

/-- The text of a scalar, whatever it looks like. -/
def text? (node : Node) : Option String :=
  match node.bare with
  | scalar text _ => some text
  | _ => none

def bool? : Node → Option Bool
  | scalar text .plain => Kind.boolean? text
  | tagged tag (scalar text style) =>
    if style = .plain ∨ (style = .literal ∧ tag = .boolean) then Kind.boolean? text else none
  | _ => none

/-- The items of a sequence; where nothing is written there are none. -/
def items? (node : Node) : Option (List Node) :=
  match node.bare with
  | sequence items => some items
  | scalar "" .plain => some []
  | _ => none

/-- The pairs of a mapping; where nothing is written there are none. -/
def pairs? (node : Node) : Option (List (Node × Node)) :=
  match node.bare with
  | mapping pairs => some pairs
  | scalar "" .plain => some []
  | _ => none

end Node

end TypeDictionary.Yaml
