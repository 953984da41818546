/-!
# Element trees

What is left of a markup document once it has been read: elements with local names, attributes with
local names, and child elements. Text, comments and namespaces are gone, so `opc:Field` and `Field`
answer to the same query.

The walk over a subtree keeps its pending elements in a list and so needs no call stack of its own;
`preorder` is the same order by recursion on the tree.
-/

namespace TypeDictionary.Markup

/-- An element with its attributes and child elements in document order. -/
structure Element where
  name : String
  attributes : List (String × String)
  children : List Element
deriving Repr, Inhabited

namespace Element

/-- The value of the first attribute with a local name. -/
def attribute? (element : Element) (name : String) : Option String :=
  (element.attributes.find? fun pair => pair.1 = name).map Prod.snd

def childrenNamed (element : Element) (name : String) : List Element :=
  element.children.filter fun child => child.name = name

mutual

def size : Element → Nat
  | ⟨_, _, children⟩ => sizeAll children + 1

def sizeAll : List Element → Nat
  | [] => 0
  | element :: rest => size element + sizeAll rest

end

mutual

/-- The elements of a subtree, each before its children. -/
def preorder : Element → List Element
  | ⟨name, attributes, children⟩ => ⟨name, attributes, children⟩ :: preorderAll children

def preorderAll : List Element → List Element
  | [] => []
  | element :: rest => preorder element ++ preorderAll rest

end

theorem sizeAll_append (first second : List Element) :
    sizeAll (first ++ second) = sizeAll first + sizeAll second := by
  induction first with
  | nil => simp [sizeAll]
  | cons element rest ih => simp only [List.cons_append, sizeAll, ih]; omega

theorem size_eq (element : Element) : element.size = sizeAll element.children + 1 := by
  cases element; rfl

/-- The elements met by taking pending elements one by one and putting the children of each in
front of the rest. -/
def walk : List Element → List Element
  | [] => []
  | element :: pending => element :: walk (element.children ++ pending)
termination_by pending => sizeAll pending
decreasing_by
  simp only [sizeAll_append, sizeAll, size_eq]
  omega

/-- The elements of a subtree with a local name, the root included, in document order. -/
def descendantsNamed (element : Element) (name : String) : List Element :=
  (walk [element]).filter fun descendant => descendant.name = name

/-- The element reached from a root by child positions. -/
def at? (element : Element) : List Nat → Option Element
  | [] => some element
  | position :: path => do (← element.children[position]?).at? path

end Element

end TypeDictionary.Markup
