import TypeDictionary.Yaml.Kind
import TypeDictionary.Yaml.Node

/-!
# Writing nodes

Nodes are written in block style, two columns to a level, with the items of a sequence aligned with
the key before it. A text is written in the first style that brings it back: as it is, in single
quotes, as a literal block if it has several lines, and otherwise in double quotes.
-/

namespace TypeDictionary.Yaml

namespace Written

/-- Whether a character may stand in a text as it is. -/
def isPrintable (c : Char) : Bool :=
  let n := c.toNat
  n = 0x0A ∨ (0x20 ≤ n ∧ n ≤ 0x7E) ∨
    (0xA0 ≤ n ∧ n ≠ 0xFEFF ∧ n ≠ 0xFFFE ∧ n ≠ 0xFFFF)

/-- The characters that end lines within a written text, the carriage return aside, which is never
written as it is. -/
def endsLine (c : Char) : Bool := c = '\n' ∨ c = '\u2028' ∨ c = '\u2029'

def hasPair (p : Char → Char → Bool) : List Char → Bool
  | a :: b :: rest => p a b || hasPair p (b :: rest)
  | _ => false

/-- Whether a text begins like a mark between documents. -/
def beginsAsMark (text : List Char) : Bool :=
  "---".toList.isPrefixOf text || "...".toList.isPrefixOf text

/-- Whether a text begins with a character that means something else there. -/
def beginsAsIndicator : List Char → Bool
  | [] => false
  | c :: rest =>
    "#,[]\x7b\x7d&*!|>'\"%@\x60".toList.contains c ||
      (("-?:".toList.contains c) && (rest.head?.map isGap).getD true)

/-- Whether something inside or at the end of a text would end it: a colon before a gap, or a hash
sign after one. -/
def holdsIndicator (text : List Char) : Bool :=
  text.getLast? = some ':' ||
    hasPair (fun a b => (a = ':' && isGap b) || (isGap a && b = '#')) text

/-- Whether a text on one line may be written as it is. -/
def allowsPlain (text : List Char) : Bool :=
  text.head? ≠ some ' ' && text.getLast? ≠ some ' ' && !beginsAsMark text &&
    !beginsAsIndicator text && !holdsIndicator text && text.all isPrintable &&
    !text.any endsLine

/-- Whether a space stands right before the end of a line. -/
def hasTrailingSpace (text : List Char) : Bool := hasPair (fun a b => a = ' ' && endsLine b) text

/-- Whether a space stands right at the front of a later line. -/
def hasLeadingSpace (text : List Char) : Bool := hasPair (fun a b => endsLine a && b = ' ') text

def allowsSingle (text : List Char) : Bool :=
  !hasTrailingSpace text && !hasLeadingSpace text && text.all isPrintable

def allowsBlock (text : List Char) : Bool :=
  !hasTrailingSpace text && text.getLast? ≠ some ' ' && text.all isPrintable

/-- The lower-right `count` hexadecimal digits of a number, in upper case. -/
def hexDigits (count n : Nat) : List Char :=
  (List.range count).reverse.map fun place => (Nat.digitChar ((n >>> (4 * place)) % 16)).toUpper

def escape (c : Char) : List Char :=
  match c with
  | '\x00' => ['\\', '0']
  | '\x07' => ['\\', 'a']
  | '\x08' => ['\\', 'b']
  | '\t' => ['\\', 't']
  | '\n' => ['\\', 'n']
  | '\x0b' => ['\\', 'v']
  | '\x0c' => ['\\', 'f']
  | '\r' => ['\\', 'r']
  | '\x1b' => ['\\', 'e']
  | '"' => ['\\', '"']
  | '\\' => ['\\', '\\']
  | '\u0085' => ['\\', 'N']
  | '\u2028' => ['\\', 'L']
  | '\u2029' => ['\\', 'P']
  | c =>
    if isPrintable c then [c]
    else if c.toNat ≤ 0xFF then '\\' :: 'x' :: hexDigits 2 c.toNat
    else if c.toNat ≤ 0xFFFF then '\\' :: 'u' :: hexDigits 4 c.toNat
    else '\\' :: 'U' :: hexDigits 8 c.toNat

def doubleQuoted (text : List Char) : List Char := '"' :: text.flatMap escape ++ ['"']

/-- The characters of a text with each line but the first moved to a column; `afterBreak` tells that
a line has just ended. -/
def indentLines (column : Nat) (afterBreak : Bool) : List Char → List Char
  | [] => []
  | c :: rest =>
    if endsLine c then c :: indentLines column true rest
    else
      (if afterBreak then List.replicate column ' ' else []) ++ c :: indentLines column false rest

def singleQuoted (column : Nat) (text : List Char) : List Char :=
  let quoted := text.flatMap fun c => if c = '\'' then ['\'', '\''] else [c]
  '\'' :: indentLines column false (quoted ++ ['\''])

/-- The header of a literal block: the indentation if the text does not show it, and what becomes of
the line ends at its end. -/
def blockHeader (text : List Char) : List Char :=
  let indentation := if text.head?.any fun c => c = ' ' || endsLine c then ['2'] else []
  let chomping :=
    match text.reverse with
    | [] => ['-']
    | [c] => if endsLine c then ['+'] else ['-']
    | c :: d :: _ => if !endsLine c then ['-'] else if endsLine d then ['+'] else []
  '|' :: indentation ++ chomping

def literalBlock (column : Nat) (text : List Char) : List Char :=
  blockHeader text ++ '\n' :: indentLines column true text

/-- An anchor, which is named by its number. -/
def anchor (number : Nat) : List Char := '&' :: Nat.toDigits 10 number

def reference (number : Nat) : List Char := '*' :: Nat.toDigits 10 number

/-- The style that brings a text back and, if it has several lines, shows them. Digits behind a
superfluous zero are quoted, since other readers may take them for a number. -/
def styleOf (text : String) : Style :=
  if Kind.ofPlain text = .text ∧ !Kind.hasLeadingZero (Kind.unsigned text.toList) ∧
      allowsPlain text.toList then .plain
  else if text.toList.contains '\n' && allowsBlock text.toList then .literal
  else .quoted

def inStyle (column : Nat) (text : List Char) : Style → List Char
  | .plain => text
  | .literal => literalBlock column text
  | .quoted =>
    if !text.contains '\n' && allowsSingle text then singleQuoted column text
    else doubleQuoted text

end Written

namespace Node

def ofString (text : String) : Node := scalar text (Written.styleOf text)

def ofInt (n : Int) : Node := scalar (toString n) .plain

def ofBool (value : Bool) : Node := scalar (if value then "true" else "false") .plain

/-- A line end, unless a line has just ended. -/
def endLine (written : List Char) : List Char :=
  if written.getLast?.any Written.endsLine then written else written ++ ['\n']

mutual

/-- A node behind a hyphen or at the very front, where its column is. -/
def renderAt (column : Nat) : Node → List Char
  | scalar text style => endLine (Written.inStyle column text.toList style)
  | sequence [] => ['[', ']', '\n']
  | sequence (item :: rest) =>
    '-' :: ' ' :: renderAt (column + 2) item ++ renderItems column rest
  | mapping [] => ['\x7b', '\x7d', '\n']
  | mapping ((key, value) :: rest) =>
    renderKey key ++ renderValue column value ++ renderPairs column rest
  | tagged tag node => tag.render ++ renderValue column node
  | anchored anchor node => Written.anchor anchor ++ renderValue column node
  | reference anchor => Written.reference anchor ++ ['\n']

def renderItems (column : Nat) : List Node → List Char
  | [] => []
  | item :: rest =>
    List.replicate column ' ' ++ '-' :: ' ' :: renderAt (column + 2) item ++
      renderItems column rest

def renderPairs (column : Nat) : List (Node × Node) → List Char
  | [] => []
  | (key, value) :: rest =>
    List.replicate column ' ' ++ renderKey key ++ renderValue column value ++
      renderPairs column rest

/-- A key and its colon. Only scalars on one line are written as keys. -/
def renderKey : Node → List Char
  | scalar text style => Written.inStyle 0 text.toList style ++ [':']
  | tagged tag node => tag.render ++ ' ' :: renderKey node
  | anchored anchor node => Written.anchor anchor ++ ' ' :: renderKey node
  | reference anchor => Written.reference anchor ++ [' ', ':']
  | _ => [':']

/-- A value behind its key, a tag or an anchor, whose column is given. -/
def renderValue (column : Nat) : Node → List Char
  | scalar text style => ' ' :: endLine (Written.inStyle (column + 2) text.toList style)
  | sequence [] => [' ', '[', ']', '\n']
  | sequence items => '\n' :: renderItems column items
  | mapping [] => [' ', '\x7b', '\x7d', '\n']
  | mapping pairs => '\n' :: renderPairs (column + 2) pairs
  | tagged tag node => ' ' :: tag.render ++ renderValue column node
  | anchored anchor node => ' ' :: Written.anchor anchor ++ renderValue column node
  | reference anchor => ' ' :: Written.reference anchor ++ ['\n']

end

def render (root : Node) : String := String.ofList (renderAt 0 root)

end Node

end TypeDictionary.Yaml
