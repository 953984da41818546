import TypeDictionary.Text.Reader

/-!
# Located characters

Whether a character begins a token depends on its column and on the line of the tokens before it, so
a text is first turned into cells that know their place. The end of the text is a cell of its own,
with the character NUL, which a text cannot hold.
-/

namespace TypeDictionary.Yaml

/-- The text breaks a rule of the language. -/
structure Malformed where
deriving DecidableEq, Repr

/-- A character with its place: line and column from zero, and the bytes before it. -/
structure Cell where
  char : Char
  line : Nat
  column : Nat
  offset : Nat
deriving DecidableEq, Repr, Inhabited

/-- The character that stands for the end of the text. -/
def theEnd : Char := '\x00'

def isReadable (c : Char) : Bool :=
  let n := c.toNat
  n = 0x09 ∨ n = 0x0A ∨ n = 0x0D ∨ (0x20 ≤ n ∧ n ≤ 0x7E) ∨ n = 0x85 ∨
    (0xA0 ≤ n ∧ n ≠ 0xFFFE ∧ n ≠ 0xFFFF)

/-- Whether a character ends a line; a carriage return and a line feed in a row end one line. -/
def isBreak (c : Char) : Bool :=
  c = '\n' ∨ c = '\r' ∨ c = '\u0085' ∨ c = '\u2028' ∨ c = '\u2029'

/-- Whether a character separates on a line. -/
def isBlank (c : Char) : Bool := c = ' ' ∨ c = '\t'

/-- Whether a line or the text ends at a character. -/
def isLineEnd (c : Char) : Bool := isBreak c ∨ c = theEnd

/-- Whether a character is blank, ends a line, or is the end. -/
def isGap (c : Char) : Bool := isBlank c ∨ isLineEnd c

/-- Whether a character may stand in the name of a directive, a handle or an anchor. -/
def isWordChar (c : Char) : Bool := c.isAlphanum ∨ c = '-' ∨ c = '_'

namespace Cell

/-- Cells for characters that begin at a place. -/
def locateFrom (line column offset : Nat) : List Char → List Cell
  | [] => [⟨theEnd, line, column, offset⟩]
  | c :: rest =>
    let ends := isBreak c ∧ ¬(c = '\r' ∧ rest.head? = some '\n')
    ⟨c, line, column, offset⟩ ::
      if ends then locateFrom (line + 1) 0 (offset + c.utf8Size) rest
      else locateFrom line (column + 1) (offset + c.utf8Size) rest

/-- The cells of a text, or nothing if it holds a character that no text can hold. -/
def ofText? (text : List Char) : Option (List Cell) :=
  if text.all isReadable then some (locateFrom 0 0 0 text) else none

end Cell

abbrev Scan (α : Type) := Text.Reader Cell Malformed α

namespace Scan

def fail {α : Type} : Scan α := Text.Reader.failWith fun _ => {}

def remaining : Scan (List Cell) := Text.Reader.remaining

def here : Scan Cell := do
  match ← remaining with
  | [] => fail
  | cell :: _ => return cell

def ahead (distance : Nat) : Scan Char := do
  match (← remaining)[distance]? with
  | none => return theEnd
  | some cell => return cell.char

def skip : Scan Unit := Text.Reader.skip

def skipMany : Nat → Scan Unit
  | 0 => return ()
  | n + 1 => do
    skip
    skipMany n

def takeWhile (p : Char → Bool) : Scan (List Char) := do
  return (← Text.Reader.takeWhile fun cell => p cell.char).map Cell.char

/-- Repeats a step on a state until it answers `none`. -/
def iterate {β : Type} (step : β → Scan (Option β)) (state : β) : Scan β :=
  Text.Reader.iterate step state

/-- Uses the end of a line, and gives the character that it means. -/
def lineBreak : Scan Char := do
  let c := (← here).char
  skip
  if c = '\r' ∧ (← ahead 0) = '\n' then skip
  return if c = '\u2028' ∨ c = '\u2029' then c else '\n'

/-- Whether three hyphens or three points stand at the front of a line, with a gap behind them. -/
def atDocumentMark : Scan Bool := do
  match ← remaining with
  | a :: b :: c :: rest =>
    return a.column = 0 ∧ (a.char = '-' ∨ a.char = '.') ∧ b.char = a.char ∧ c.char = a.char ∧
      (rest.head?.map fun cell => isGap cell.char).getD true
  | _ => return false

end Scan

end TypeDictionary.Yaml
