import TypeDictionary.Text.Numeral
import TypeDictionary.Yaml.Cell

/-!
# Scalar texts

Reading the text of a scalar in each of its styles. Where a scalar goes on over several lines, one
line end between two lines of text becomes a space, and of several the first is dropped. A literal
block keeps every line end, and a folded block those around lines that are indented further.
-/

namespace TypeDictionary.Yaml

/-- How a scalar is written: as it is, as a literal block, or else between quotes or as a folded
block. -/
inductive Style
  | plain
  | literal
  | quoted
deriving DecidableEq, Repr

namespace ScalarText

open Scan

/-- Blanks and line ends that have been used but not yet been made part of the text. All lists are
held last character first; the first line end is kept as what it adds to a text, which is nothing if
it is escaped. -/
structure Gap where
  blanks : List Char
  firstBreak : Option (List Char)
  laterBreaks : List Char

namespace Gap

def none : Gap := ⟨[], Option.none, []⟩

def hasBreak (gap : Gap) : Bool := gap.firstBreak.isSome

def joinTo (gap : Gap) (text : List Char) : List Char :=
  match gap.firstBreak with
  | Option.none => gap.blanks ++ text
  | some ['\n'] => if gap.laterBreaks.isEmpty then ' ' :: text else gap.laterBreaks ++ text
  | some separator => gap.laterBreaks ++ separator ++ text

/-- Uses blanks and line ends. Blanks at the front of a line are dropped, but no tab may stand
before column `indent` there. -/
def read (gap : Gap) (indent : Nat) : Scan Gap :=
  iterate (fun gap => do
    let cell ← here
    if isBlank cell.char then
      if gap.hasBreak ∧ cell.char = '\t' ∧ cell.column < indent then fail
      skip
      return some (if gap.hasBreak then gap else { gap with blanks := cell.char :: gap.blanks })
    else if isBreak cell.char then
      let separator ← lineBreak
      return some
        (if gap.hasBreak then { gap with laterBreaks := separator :: gap.laterBreaks }
         else ⟨[], some [separator], []⟩)
    else return Option.none) gap

end Gap

/-- A scalar on its way: its text so far, last character first, the gap behind it, and whether its
end has been found. -/
structure Part where
  text : List Char
  gap : Gap
  ended : Bool

def Part.start : Part := ⟨[], .none, false⟩

def Part.push (part : Part) (c : Char) : Part := ⟨c :: part.gap.joinTo part.text, .none, false⟩

/-- Whether a character separates flow collections or their items. -/
def isFlowIndicator (c : Char) : Bool := c = ',' ∨ c = '[' ∨ c = ']' ∨ c = '{' ∨ c = '}'

/-- Uses the characters of a plain scalar up to a gap or an indicator. -/
def plainRun (inFlow : Bool) (part : Part) : Scan Part :=
  iterate (fun part => do
    let c := (← here).char
    let next ← ahead 1
    if isGap c then return none
    else if inFlow ∧ c = ':' ∧ (next = '?' ∨ isFlowIndicator next) then fail
    else if (c = ':' ∧ isGap next) ∨ (inFlow ∧ isFlowIndicator c) then return none
    else
      skip
      return some (part.push c)) part

/-- A plain scalar below block indentation `indent`, and whether a line end follows it. -/
def plain (inFlow : Bool) (indent : Nat) : Scan (String × Bool) := do
  let part ← iterate (fun (part : Part) => do
    if part.ended then return none
    else if (← here).char = '#' ∨ (← atDocumentMark) then return none
    else
      let part ← plainRun inFlow part
      let c := (← here).char
      if !(isBlank c || isBreak c) then return some { part with ended := true }
      let gap ← part.gap.read indent
      let ended := !inFlow && decide ((← here).column < indent)
      return some { part with gap, ended }) Part.start
  return (String.ofList part.text.reverse, part.gap.hasBreak)

def escaped? : Char → Option Char
  | '0' => some '\x00'
  | 'a' => some '\x07'
  | 'b' => some '\x08'
  | 't' => some '\t'
  | '\t' => some '\t'
  | 'n' => some '\n'
  | 'v' => some '\x0b'
  | 'f' => some '\x0c'
  | 'r' => some '\r'
  | 'e' => some '\x1b'
  | ' ' => some ' '
  | '"' => some '"'
  | '/' => some '/'
  | '\\' => some '\\'
  | 'N' => some '\u0085'
  | '_' => some '\u00a0'
  | 'L' => some '\u2028'
  | 'P' => some '\u2029'
  | _ => none

def escapeLength? : Char → Option Nat
  | 'x' => some 2
  | 'u' => some 4
  | 'U' => some 8
  | _ => none

/-- The character that an escape stands for, after its backslash. -/
def escape : Scan Char := do
  let letter := (← here).char
  skip
  match escaped? letter with
  | some c => return c
  | none =>
    match escapeLength? letter with
    | none => fail
    | some length =>
      let digits := ((← remaining).take length).map Cell.char
      match Text.Numeral.natural? 16 digits with
      | none => fail
      | some code =>
        if digits.length = length ∧ code.isValidChar then
          skipMany length
          return Char.ofNat code
        else fail

/-- Uses the characters of a quoted scalar up to a gap, an escaped line end or the closing quote. -/
def quotedRun (quote : Char) (part : Part) : Scan Part :=
  iterate (fun (part : Part) => do
    let c := (← here).char
    let next ← ahead 1
    if part.ended ∨ isGap c then return none
    else if quote = '\'' ∧ c = '\'' ∧ next = '\'' then
      skipMany 2
      return some (part.push '\'')
    else if c = quote then return none
    else if quote = '"' ∧ c = '\\' ∧ isBreak next then
      skip
      let _ ← lineBreak
      return some ⟨part.text, ⟨[], some [], []⟩, true⟩
    else if quote = '"' ∧ c = '\\' then
      skip
      return some (part.push (← escape))
    else
      skip
      return some (part.push c)) part

/-- A quoted scalar from its opening quote on. An escaped line end joins two lines without a
space. -/
def quoted : Scan String := do
  let quote := (← here).char
  skip
  let part ← iterate (fun (part : Part) => do
    if part.ended then return none
    if (← atDocumentMark) ∨ (← here).char = theEnd then fail
    let part ← quotedRun quote part
    if (← here).char = quote ∧ !part.ended then
      skip
      return some { part with ended := true }
    let gap ← part.gap.read 0
    return some ⟨gap.joinTo part.text, .none, false⟩) Part.start
  return String.ofList part.text.reverse

/-- What becomes of the line ends at the end of a block scalar. -/
inductive Chomping
  | strip
  | clip
  | keep
deriving DecidableEq

def Chomping.ofIndicator? : Char → Option Chomping
  | '-' => some strip
  | '+' => some keep
  | _ => none

/-- The header of a block scalar behind its first character: chomping and indentation in either
order, then nothing but a comment. -/
def blockHeader : Scan (Chomping × Option Nat) := do
  let indicators ← takeWhile fun c => c = '-' ∨ c = '+' ∨ c.isDigit
  let header ← match indicators with
    | [] => pure (Chomping.clip, none)
    | [c] =>
      match Chomping.ofIndicator? c, Text.Numeral.digit? 10 c with
      | some chomping, _ => pure (chomping, none)
      | none, digit => pure (Chomping.clip, digit)
    | [c, d] =>
      match Chomping.ofIndicator? c, Chomping.ofIndicator? d with
      | some chomping, none => pure (chomping, Text.Numeral.digit? 10 d)
      | none, some chomping => pure (chomping, Text.Numeral.digit? 10 c)
      | _, _ => fail
    | _ => fail
  if header.2 = some 0 then fail
  let _ ← takeWhile isBlank
  if (← here).char = '#' then
    let _ ← takeWhile fun c => !isLineEnd c
  unless isLineEnd (← here).char do fail
  if isBreak (← here).char then
    let _ ← lineBreak
  return header

/-- Uses empty lines and the indentation of the line behind them: the line ends, last first, and the
greatest column that was reached. Without a known indentation, all leading spaces are used. -/
def blockBreaks (indent : Option Nat) : Scan (List Char × Nat) :=
  iterate (fun (breaks, reached) => do
    let inside (cell : Cell) : Bool :=
      match indent with
      | none => true
      | some indent => decide (cell.column < indent)
    let cell ← here
    if cell.char = ' ' ∧ inside cell then
      skip
      return some (breaks, max reached (cell.column + 1))
    else if cell.char = '\t' ∧ inside cell then fail
    else if isBreak cell.char then
      let separator ← lineBreak
      return some (separator :: breaks, reached)
    else return none) ([], 0)

/-- A block scalar on its way: its text so far and the line ends behind it, last character first,
and whether its last line began with a blank. -/
structure Block where
  text : List Char
  lineEnd : List Char
  emptyLines : List Char
  indented : Bool

/-- A block scalar from its indicator on, inside block indentation `parent`. -/
def block (folded : Bool) (parent : Int) : Scan String := do
  skip
  let (chomping, increment) ← blockHeader
  let given := increment.map fun n => (max parent 0).toNat + n
  let (breaks, reached) ← blockBreaks given
  let indent := given.getD (max (max reached (parent + 1).toNat) 1)
  let block ← iterate (fun (block : Block) => do
    let cell ← here
    if cell.column ≠ indent ∨ cell.char = theEnd then return none
    let indented := isBlank cell.char
    let joined :=
      if folded ∧ block.lineEnd = ['\n'] ∧ !block.indented ∧ !indented then
        if block.emptyLines.isEmpty then [' '] else []
      else block.lineEnd
    let line ← takeWhile fun c => !isLineEnd c
    let lineEnd ← if isBreak (← here).char then pure [← lineBreak] else pure []
    let (emptyLines, _) ← blockBreaks (some indent)
    return some
      ⟨line.reverse ++ block.emptyLines ++ joined ++ block.text, lineEnd, emptyLines, indented⟩)
    ⟨[], [], breaks, false⟩
  let tail := match chomping with
    | .strip => []
    | .clip => block.lineEnd
    | .keep => block.emptyLines ++ block.lineEnd
  return String.ofList (tail ++ block.text).reverse

end ScalarText

end TypeDictionary.Yaml
