import TypeDictionary.Text.Numeral

/-!
# Kinds of plain scalars

A plain scalar is a text unless it reads like something else: nothing, a truth value, an integer or
another number. Integers have up to 128 bits, may have a sign and one of three base marks, and have
no superfluous leading zeros. Other numbers are those that a binary64 can come near, together with
the words for the infinities and for no number.
-/

namespace TypeDictionary.Yaml

open Text (Numeral.natural?)

/-- What a plain scalar reads like. -/
inductive Kind
  | null
  | boolean (value : Bool)
  | integer (value : Int)
  | number
  | text
deriving DecidableEq, Repr

namespace Kind

def nullWords : List String := ["null", "Null", "NULL", "~"]

def boolean? (word : String) : Option Bool :=
  if word = "true" ∨ word = "True" ∨ word = "TRUE" then some true
  else if word = "false" ∨ word = "False" ∨ word = "FALSE" then some false
  else none

/-- A text without its sign, if it has one. -/
def unsigned : List Char → List Char
  | '+' :: rest => rest
  | '-' :: rest => rest
  | digits => digits

/-- Whether a text is made of digits only, the first of several being zero. -/
def hasLeadingZero : List Char → Bool
  | '0' :: c :: rest => (c :: rest).all Char.isDigit
  | _ => false

/-- The number that digits denote, in the base that a mark in front of them names. -/
def magnitude? : List Char → Option Nat
  | '0' :: 'x' :: digits => Numeral.natural? 16 digits
  | '0' :: 'o' :: digits => Numeral.natural? 8 digits
  | '0' :: 'b' :: digits => Numeral.natural? 2 digits
  | digits => if hasLeadingZero digits then none else Numeral.natural? 10 digits

/-- The integer that a text denotes, if it has at most 128 bits. -/
def integer? (text : List Char) : Option Int :=
  let value? : Option Int :=
    match text with
    | '-' :: digits => (magnitude? digits).map fun n => -(n : Int)
    | '+' :: digits => (magnitude? digits).map Int.ofNat
    | digits => (magnitude? digits).map Int.ofNat
  value?.filter fun n => decide (-(Int.pow 2 127) ≤ n ∧ n < Int.pow 2 128)

/-- The digits and the power of ten of a number in decimal or scientific notation, without sign. -/
def decimal? (text : List Char) : Option (List Char × Int) := do
  let whole := text.takeWhile Char.isDigit
  let rest := text.dropWhile Char.isDigit
  let (fraction, rest) :=
    match rest with
    | '.' :: rest => (rest.takeWhile Char.isDigit, rest.dropWhile Char.isDigit)
    | _ => ([], rest)
  let digits := whole ++ fraction
  if digits.isEmpty then none
  let exponent ←
    match rest with
    | [] => some 0
    | c :: rest => if c = 'e' ∨ c = 'E' then Text.Numeral.integer? rest else none
  return (digits, exponent - fraction.length)

/-- Whether digits times a power of ten are nearer to a finite binary64 than to infinity. -/
def isFinite (digits : List Char) (exponent : Int) : Bool :=
  let significant := digits.dropWhile (· = '0')
  let magnitude := (significant.length : Int) + exponent
  if significant.isEmpty ∨ magnitude < 309 then true
  else if 309 < magnitude then false
  else match Numeral.natural? 10 significant with
    | none => true
    | some n =>
      let bound := Nat.pow 2 1024 - Nat.pow 2 970
      decide (n * Nat.pow 10 exponent.toNat < bound * Nat.pow 10 (-exponent).toNat)

/-- Whether a text denotes a number that need not be an integer. -/
def isNumber (text : List Char) : Bool :=
  let special (words : List String) (text : List Char) : Bool := words.any (·.toList = text)
  if special [".nan", ".NaN", ".NAN"] text then true
  else if special [".inf", ".Inf", ".INF"] (unsigned text) then true
  else match decimal? (unsigned text) with
    | some (digits, exponent) => isFinite digits exponent
    | none => false

/-- What a plain scalar reads like. -/
def ofPlain (text : String) : Kind :=
  if text = "" ∨ text ∈ nullWords then null
  else match boolean? text with
    | some value => boolean value
    | none => match integer? text.toList with
      | some value => integer value
      | none =>
        if !hasLeadingZero (unsigned text.toList) && isNumber text.toList then number else .text

end Kind

end TypeDictionary.Yaml
