/-!
# Sets of characters given by ranges

A character property is stored as its inclusive code point ranges in increasing order. Membership
walks the list and gives up at the first range that begins beyond the character, so ASCII answers
after a few comparisons.
-/

namespace TypeDictionary.Text

/-- Inclusive code point ranges, in increasing order and without overlap. -/
abbrev CodePoints := List (Nat × Nat)

namespace CodePoints

def contains : CodePoints → Nat → Bool
  | [], _ => false
  | (first, last) :: rest, n =>
    if n < first then false else if n ≤ last then true else contains rest n

def has (ranges : CodePoints) (c : Char) : Bool := contains ranges c.toNat

end CodePoints

end TypeDictionary.Text
