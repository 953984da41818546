import TypeDictionary.Text.Alphabetic
import TypeDictionary.Text.DecimalDigit

/-!
# Identifiers

Dictionaries name their types freely; the rest of the library works with identifiers. Cleaning a
name puts one underscore in place of every maximal run of characters that an identifier cannot
hold, and one in front if the result would begin with a digit.

The rule is stated over any two character classes. `Identifier.clean` takes those of Unicode.
-/

namespace TypeDictionary

/-- The characters that identifiers are made of, besides the underscore. -/
structure Alphabet where
  letter : Char → Bool
  digit : Char → Bool

namespace Alphabet

/-- Whether an identifier can hold a character. -/
def allows (a : Alphabet) (c : Char) : Bool := a.letter c || a.digit c || c == '_'

/-- Replaces each maximal run of foreign characters by one underscore. `inRun` tells that the
character before was foreign, so that its underscore is already written. -/
def collapse (a : Alphabet) (inRun : Bool) : List Char → List Char
  | [] => []
  | c :: rest =>
    if a.allows c then c :: a.collapse false rest
    else if inRun then a.collapse true rest
    else '_' :: a.collapse true rest

/-- Puts an underscore before a leading digit. -/
def guardDigit (a : Alphabet) : List Char → List Char
  | [] => []
  | c :: rest => if a.digit c then '_' :: c :: rest else c :: rest

def clean (a : Alphabet) (raw : List Char) : List Char := a.guardDigit (a.collapse false raw)

/-- A text that cleaning leaves alone: allowed characters only, no digit in front. -/
def IsLegal (a : Alphabet) (text : List Char) : Prop :=
  (∀ c ∈ text, a.allows c = true) ∧ ∀ c ∈ text.head?, a.digit c = false

instance (a : Alphabet) (text : List Char) : Decidable (a.IsLegal text) :=
  inferInstanceAs (Decidable (_ ∧ _))

/-- Alphabetic characters and decimal digits of all scripts. -/
def unicode : Alphabet := ⟨Text.isAlphabetic, Text.isDecimalDigit⟩

end Alphabet

namespace Identifier

def clean (raw : String) : String := String.ofList (Alphabet.unicode.clean raw.toList)

/-- What follows the first colon of a qualified name, or the whole name if it has none. -/
def afterColon : List Char → Option (List Char)
  | [] => none
  | ':' :: rest => some rest
  | _ :: rest => afterColon rest

/-- A qualified name without its namespace: the text after the first colon. -/
def localPart (qualified : String) : String :=
  match afterColon qualified.toList with
  | some rest => String.ofList rest
  | none => qualified

end Identifier

end TypeDictionary
