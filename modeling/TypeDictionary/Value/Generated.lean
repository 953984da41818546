/-!
# Generated values

Some initial values are made anew for each instance: random identifiers and the present time. What
they are is decided elsewhere; here they are known by their seed, which says which evaluation they
come from. Different seeds never give the same value, and a copy keeps its seed.
-/

namespace TypeDictionary

/-- The place of an evaluation: the steps that led to it, outermost first. -/
abbrev Seed := List Nat

/-- A globally unique identifier: one given by its 128 bits, or a random one. -/
inductive Guid
  | given (bits : BitVec 128)
  | random (seed : Seed)
deriving DecidableEq, Repr

namespace Guid

/-- Whether the identifier is of version 4, the random one. -/
def isRandom : Guid → Bool
  | given bits => (bits.extractLsb' 76 4).toNat = 4
  | random _ => true

/-- The lowest `count` hexadecimal digits of a number. -/
def hexDigits (count n : Nat) : List Char :=
  (List.range count).reverse.map fun place => Nat.digitChar ((n >>> (4 * place)) % 16)

/-- The five groups of lower-case digits, joined by hyphens. -/
def text (bits : BitVec 128) : String :=
  let digits := hexDigits 32 bits.toNat
  "-".intercalate
    ([(0, 8), (8, 4), (12, 4), (16, 4), (20, 12)].map fun (start, count) =>
      String.ofList ((digits.drop start).take count))

end Guid

/-- A point in time: one given in nanoseconds since 1970, or the time of an evaluation. -/
inductive Instant
  | given (nanoseconds : Int)
  | now (seed : Seed)
deriving DecidableEq, Repr

end TypeDictionary
