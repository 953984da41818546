import TypeDictionary.Yaml.Token

/-!
# Finding tokens

The tokens of a text, from its front to its end. A key is recognized when its colon comes: until
then, the place where its token would stand is remembered as a candidate, together with the place in
the text that it would have begun at.

The number of an anchor is how many names there are before it. A name that is given again takes a
new number all the same, which the next new name then takes as well.
-/

namespace TypeDictionary.Yaml

/-- A place where a key may have begun: the number of tokens before it, and the first cell. A
required key stands where nothing but a key can. -/
structure Candidate where
  tokens : Nat
  cell : Cell
  required : Bool

/-- The tokens found so far, last first, with what decides about the next one: the columns of the
open block collections, innermost first, a candidate for each open flow collection and for the block
around them, whether a key may begin here, the handles with directives, and the names of anchors
with their numbers. -/
structure Lexer where
  tokens : List Token
  columns : List Nat
  candidates : List (Option Candidate)
  keyAllowed : Bool
  handles : List (String × Tag)
  anchors : List (String × Nat)

namespace Lexer

open Scan

def start : Lexer := ⟨[], [], [none], true, [], []⟩

def inFlow (lexer : Lexer) : Bool := decide (1 < lexer.candidates.length)

/-- The column of the innermost block collection; outside of all it is left of every column. -/
def indent (lexer : Lexer) : Int :=
  match lexer.columns with
  | [] => -1
  | column :: _ => column

def emit (lexer : Lexer) (token : Token) : Lexer := { lexer with tokens := token :: lexer.tokens }

def insert (lexer : Lexer) (place : Nat) (token : Token) : Lexer :=
  { lexer with tokens := lexer.tokens.insertIdx (lexer.tokens.length - place) token }

/-- Opens a block collection at a column to the right of all open ones, its token after a number of
tokens. -/
def openBlock (lexer : Lexer) (column place : Nat) (token : Token) : Lexer :=
  if lexer.inFlow ∨ (column : Int) ≤ lexer.indent then lexer
  else { lexer.insert place token with columns := column :: lexer.columns }

/-- Closes the block collections to the right of a column. -/
def closeBlocks (lexer : Lexer) (column : Int) : Lexer :=
  if lexer.inFlow then lexer
  else
    let closed := lexer.columns.takeWhile fun (opened : Nat) => decide (column < (opened : Int))
    { lexer with
      tokens := List.replicate closed.length .blockEnd ++ lexer.tokens
      columns := lexer.columns.drop closed.length }

/-- Gives up the innermost candidate, which must not be required. -/
def dropCandidate (lexer : Lexer) : Scan Lexer :=
  match lexer.candidates with
  | [] => return lexer
  | candidate :: rest =>
    if candidate.any Candidate.required then fail
    else return { lexer with candidates := none :: rest }

/-- Makes the present place a candidate, if a key may begin here. -/
def saveCandidate (lexer : Lexer) (cell : Cell) : Scan Lexer := do
  if !lexer.keyAllowed then return lexer
  let required := !lexer.inFlow && decide (lexer.indent = cell.column)
  let lexer ← lexer.dropCandidate
  return { lexer with
    candidates := some ⟨lexer.tokens.length, cell, required⟩ :: lexer.candidates.drop 1 }

/-- Gives up the candidates that cannot be keys any more: a key ends on the line it began on, and
within 1024 bytes. -/
def dropStale (lexer : Lexer) (cell : Cell) : Scan Lexer := do
  let isStale (candidate : Candidate) : Bool :=
    decide (candidate.cell.line < cell.line ∨ candidate.cell.offset + 1024 < cell.offset)
  if lexer.candidates.any fun candidate => candidate.any fun c => isStale c && c.required then fail
  return { lexer with
    candidates := lexer.candidates.map fun candidate => candidate.filter fun c => !isStale c }

/-- Uses space and comments before a token. A tab does not count as space where a block key could
begin, and a byte order mark does so at the front of a line only. -/
def skipSpace (lexer : Lexer) : Scan Lexer :=
  iterate (fun (lexer : Lexer) => do
    let cell ← here
    if cell.char = ' ' ∨ (cell.char = '\t' ∧ (lexer.inFlow ∨ !lexer.keyAllowed)) ∨
        (cell.char = '\ufeff' ∧ cell.column = 0) then
      skip
      return some lexer
    else if cell.char = '#' then
      let _ ← takeWhile fun c => !isLineEnd c
      return some lexer
    else if isBreak cell.char then
      let _ ← lineBreak
      return some { lexer with keyAllowed := !lexer.inFlow || lexer.keyAllowed }
    else return none) lexer

/-- What stands between documents ends every block and every hope for a key. -/
def betweenDocuments (lexer : Lexer) : Scan Lexer := do
  return { ← (lexer.closeBlocks (-1)).dropCandidate with keyAllowed := false }

/-- The number of a version, which has at most nine digits. -/
def versionNumber : Scan Nat := do
  let digits ← takeWhile Char.isDigit
  if 9 < digits.length then fail
  match Text.Numeral.natural? 10 digits with
  | some n => return n
  | none => fail

def version : Scan Unit := do
  let _ ← takeWhile isBlank
  let major ← versionNumber
  unless (← here).char = '.' do fail
  skip
  let minor ← versionNumber
  if major ≠ 1 ∨ (minor ≠ 1 ∧ minor ≠ 2) then fail

/-- A directive and the end of its line: the version of the language, or the meaning of a handle, of
which there is only one. -/
def directive (lexer : Lexer) : Scan Lexer := do
  skip
  let name ← takeWhile isWordChar
  unless isGap (← here).char do fail
  let lexer ←
    if name = "YAML".toList then do
      version
      pure (lexer.emit .versionDirective)
    else if name = "TAG".toList then do
      let (handle, front) ← Tag.directive
      if (lexer.handles.lookup handle).isSome then fail
      pure { lexer.emit .tagDirective with handles := (handle, front) :: lexer.handles }
    else fail
  let _ ← takeWhile isBlank
  if (← here).char = '#' then
    let _ ← takeWhile fun c => !isLineEnd c
  unless isLineEnd (← here).char do fail
  if isBreak (← here).char then
    let _ ← lineBreak
  return lexer

/-- The name of an anchor, after the sign in front of it. -/
def anchorName : Scan String := do
  skip
  let name ← takeWhile isWordChar
  let next := (← here).char
  unless isGap next ∨ "?:,]\x7d%@\x60".toList.contains next do fail
  if name.isEmpty then fail
  return String.ofList name

/-- A name for the node behind it. -/
def anchor (lexer : Lexer) (cell : Cell) : Scan Lexer := do
  let lexer ← lexer.saveCandidate cell
  let name ← anchorName
  let number := lexer.anchors.length
  return { lexer.emit (.anchor number) with
    anchors := (name, number) :: lexer.anchors.filter fun known => known.1 ≠ name
    keyAllowed := false }

/-- The name of an anchor in place of its node. -/
def reference (lexer : Lexer) (cell : Cell) : Scan Lexer := do
  let lexer ← lexer.saveCandidate cell
  match lexer.anchors.lookup (← anchorName) with
  | none => fail
  | some number => return { lexer.emit (.reference number) with keyAllowed := false }

/-- A tag, with a gap behind it or, inside a flow collection, a comma. -/
def tag (lexer : Lexer) (cell : Cell) : Scan Lexer := do
  let lexer ← lexer.saveCandidate cell
  let tag ← Tag.read (lexer.handles ++ Tag.standardHandles)
  let next := (← here).char
  unless isGap next ∨ (lexer.inFlow ∧ next = ',') do fail
  return { lexer.emit (.tag tag) with keyAllowed := false }

/-- A token of one character that opens a flow collection. -/
def openFlow (lexer : Lexer) (cell : Cell) (token : Token) : Scan Lexer := do
  let lexer ← lexer.saveCandidate cell
  skip
  return { lexer.emit token with candidates := none :: lexer.candidates, keyAllowed := true }

def closeFlow (lexer : Lexer) (token : Token) : Scan Lexer := do
  let lexer ← lexer.dropCandidate
  skip
  let candidates := if lexer.inFlow then lexer.candidates.drop 1 else lexer.candidates
  return { lexer.emit token with candidates, keyAllowed := false }

def flowEntry (lexer : Lexer) : Scan Lexer := do
  let lexer ← lexer.dropCandidate
  skip
  return { lexer.emit .flowEntry with keyAllowed := true }

def blockEntry (lexer : Lexer) (cell : Cell) : Scan Lexer := do
  if !lexer.inFlow ∧ !lexer.keyAllowed then fail
  let lexer := lexer.openBlock cell.column lexer.tokens.length .blockSequenceStart
  let lexer ← lexer.dropCandidate
  skip
  return { lexer.emit .blockEntry with keyAllowed := true }

def explicitKey (lexer : Lexer) (cell : Cell) : Scan Lexer := do
  if !lexer.inFlow ∧ !lexer.keyAllowed then fail
  let lexer := lexer.openBlock cell.column lexer.tokens.length .blockMappingStart
  let lexer ← lexer.dropCandidate
  skip
  return { lexer.emit .key with keyAllowed := !lexer.inFlow }

/-- The colon before a value. A candidate becomes a key by it; otherwise a key has been announced
or is left out. -/
def colon (lexer : Lexer) (cell : Cell) : Scan Lexer := do
  match lexer.candidates with
  | some candidate :: rest =>
    let lexer := lexer.insert candidate.tokens .key
    let lexer := lexer.openBlock candidate.cell.column candidate.tokens .blockMappingStart
    skip
    return { lexer.emit .value with candidates := none :: rest, keyAllowed := false }
  | _ =>
    if !lexer.inFlow ∧ !lexer.keyAllowed then fail
    let lexer := lexer.openBlock cell.column lexer.tokens.length .blockMappingStart
    skip
    return { lexer.emit .value with keyAllowed := !lexer.inFlow }

/-- A block scalar, after which a new line begins. -/
def blockScalar (lexer : Lexer) (folded : Bool) : Scan Lexer := do
  let lexer ← lexer.dropCandidate
  let text ← ScalarText.block folded lexer.indent
  let style := if folded then .quoted else .literal
  return { lexer.emit (.scalar text style) with keyAllowed := true }

def quotedScalar (lexer : Lexer) (cell : Cell) : Scan Lexer := do
  let lexer ← lexer.saveCandidate cell
  let text ← ScalarText.quoted
  return { lexer.emit (.scalar text .quoted) with keyAllowed := false }

/-- A plain scalar. It may have used the line end behind it, and then a key may follow. -/
def plainScalar (lexer : Lexer) (cell : Cell) : Scan Lexer := do
  let lexer ← lexer.saveCandidate cell
  let (text, atNewLine) ← ScalarText.plain lexer.inFlow (lexer.indent + 1).toNat
  return { lexer.emit (.scalar text .plain) with keyAllowed := atNewLine }

def isIndicator (c : Char) : Bool := "-?:,[]\x7b\x7d#&*!|>'\"%@\x60".toList.contains c

/-- Whether a plain scalar begins with a character, given the next one. -/
def beginsPlain (lexer : Lexer) (c next : Char) : Bool :=
  (!isIndicator c && !isGap c) || (c = '-' && !isBlank next) ||
    (!lexer.inFlow && (c = '?' || c = ':') && !isGap next)

/-- The next token, or nothing at the end of the text. -/
def step (lexer : Lexer) : Scan (Option Lexer) := do
  if (← remaining).isEmpty then return none
  let lexer ← lexer.skipSpace
  let cell ← here
  let next ← ahead 1
  let lexer ← lexer.dropStale cell
  let lexer := lexer.closeBlocks cell.column
  if cell.char = theEnd then
    let lexer ← lexer.betweenDocuments
    skip
    return some lexer
  else if cell.column = 0 ∧ cell.char = '%' then
    let lexer ← lexer.betweenDocuments
    some <$> lexer.directive
  else if ← atDocumentMark then
    let lexer ← lexer.betweenDocuments
    skipMany 3
    return some (lexer.emit (if cell.char = '-' then .documentStart else .documentEnd))
  else match cell.char with
    | '[' => some <$> lexer.openFlow cell .flowSequenceStart
    | '{' => some <$> lexer.openFlow cell .flowMappingStart
    | ']' => some <$> lexer.closeFlow .flowSequenceEnd
    | '}' => some <$> lexer.closeFlow .flowMappingEnd
    | ',' => some <$> lexer.flowEntry
    | '&' => some <$> lexer.anchor cell
    | '*' => some <$> lexer.reference cell
    | '!' => some <$> lexer.tag cell
    | '\'' | '"' => some <$> lexer.quotedScalar cell
    | c =>
      if c = '-' ∧ isGap next then some <$> lexer.blockEntry cell
      else if c = '?' ∧ (lexer.inFlow ∨ isGap next) then some <$> lexer.explicitKey cell
      else if c = ':' ∧ (lexer.inFlow ∨ isGap next) then some <$> lexer.colon cell
      else if (c = '|' ∨ c = '>') ∧ !lexer.inFlow then
        some <$> lexer.blockScalar (decide (c = '>'))
      else if lexer.beginsPlain c next then some <$> lexer.plainScalar cell
      else fail

end Lexer

/-- The tokens of a text, or nothing if it has none. -/
def Token.ofText? (text : List Char) : Option (List Token) := do
  match (Scan.iterate Lexer.step Lexer.start).run (← Cell.ofText? text) with
  | .ok lexer => some lexer.tokens.reverse
  | .error _ => none

end TypeDictionary.Yaml
