import TypeDictionary.Resolved.Basic
import TypeDictionary.Table

/-!
# Sets of resolved types

The types that one dictionary defines, each name once. A second definition of a name takes the place
of the first, so the order is that of the first definitions. An index from names to places answers
queries without a search.
-/

namespace TypeDictionary

/-- Resolved types with different names, and the place of each name. -/
structure TypeSet where
  types : List ResolvedType
  places : Table String Nat

namespace TypeSet

def empty : TypeSet := ⟨[], .empty⟩

/-- Adds a type, or puts it in the place of the one with its name. -/
def insert (set : TypeSet) (type : ResolvedType) : TypeSet :=
  match set.places.get? type.name with
  | some place => { set with types := set.types.set place type }
  | none => ⟨set.types ++ [type], set.places.insert type.name set.types.length⟩

def get? (set : TypeSet) (name : String) : Option ResolvedType := do
  set.types[← set.places.get? name]?

def contains (set : TypeSet) (name : String) : Bool := (set.places.get? name).isSome

/-- The names, in order of first definition. -/
def names (set : TypeSet) : List String := set.types.map ResolvedType.name

end TypeSet

end TypeDictionary
