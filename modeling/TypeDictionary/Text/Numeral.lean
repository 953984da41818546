/-!
# Signed decimal numerals

A numeral is an optional single sign followed by one or more ASCII digits; leading zeros are
allowed and nothing else is. Reading is exact over the integers, and the bounded form refuses what
does not fit instead of wrapping.
-/

namespace TypeDictionary.Text

namespace Numeral

/-- The value of a digit character in a base up to sixteen. -/
def digit? (base : Nat) (c : Char) : Option Nat :=
  let value? :=
    if '0' ≤ c ∧ c ≤ '9' then some (c.toNat - '0'.toNat)
    else if 'a' ≤ c ∧ c ≤ 'f' then some (c.toNat - 'a'.toNat + 10)
    else if 'A' ≤ c ∧ c ≤ 'F' then some (c.toNat - 'A'.toNat + 10)
    else none
  value?.filter (· < base)

/-- Reads further digits after those that denote `value`. -/
def continue? (base value : Nat) : List Char → Option Nat
  | [] => some value
  | c :: rest => do continue? base (base * value + (← digit? base c)) rest

def natural? (base : Nat) : List Char → Option Nat
  | [] => none
  | digits => continue? base 0 digits

/-- The number that an optionally signed decimal numeral denotes. -/
def integer? : List Char → Option Int
  | '+' :: digits => (natural? 10 digits).map Int.ofNat
  | '-' :: digits => (natural? 10 digits).map fun n => -Int.ofNat n
  | digits => (natural? 10 digits).map Int.ofNat

/-- An integer as a 64-bit word, if it is in range. -/
def toInt64? (n : Int) : Option Int64 :=
  if -0x8000000000000000 ≤ n ∧ n < 0x8000000000000000 then some (Int64.ofInt n) else none

def int64? (text : List Char) : Option Int64 := integer? text >>= toInt64?

end Numeral

end TypeDictionary.Text
