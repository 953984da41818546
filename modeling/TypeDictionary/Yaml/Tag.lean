import TypeDictionary.Text.Numeral
import TypeDictionary.Text.Utf8
import TypeDictionary.Yaml.Cell

/-!
# Tags

A tag in front of a node tells what the node is. It is written in full between angle brackets, or in
short: a handle, which stands for the front part of a tag, and the rest of it. The handles `!` and
`!!` have meanings of their own, which a directive may replace; other handles need a directive.

In a written tag, three characters may stand for a byte. The bytes need not be UTF-8, so a tag is
held as bytes, up to the first that is zero.
-/

namespace TypeDictionary.Yaml

structure Tag where
  bytes : List UInt8
deriving DecidableEq, Repr

namespace Tag

def encode (text : List Char) : List UInt8 := text.flatMap String.utf8EncodeChar

def ofString (text : String) : Tag := ⟨encode text.toList⟩

/-- The front part of the tags of the language itself. -/
def standardFront : Tag := ofString "tag:yaml.org,2002:"

def extend (front rest : Tag) : Tag := ⟨front.bytes ++ rest.bytes⟩

def boolean : Tag := standardFront.extend (ofString "bool")

def integer : Tag := standardFront.extend (ofString "int")

def number : Tag := standardFront.extend (ofString "float")

def null : Tag := standardFront.extend (ofString "null")

/-- The tag that says no more than that there is one. -/
def nonSpecific : Tag := ofString "!"

/-- Whether a tag is one of the document's own: it begins with an exclamation mark. -/
def isLocal (tag : Tag) : Bool := tag.bytes.head? = some '!'.toUInt8

/-- Whether a tag of the document's own has a name that can be read as text. -/
def isNamed (tag : Tag) : Bool := tag.isLocal && (Text.Utf8.decode tag.bytes.tail).isOk

/-- The meanings of the handles that need no directive. -/
def standardHandles : List (String × Tag) := [("!", nonSpecific), ("!!", standardFront)]

/-- Whether a character stands for itself in a tag. In a tag that is written in short, no character
of a flow collection does. -/
def isTagChar (full : Bool) (c : Char) : Bool :=
  isWordChar c || ";/?:@&=+$.!~*'()".toList.contains c || (full && ",[]".toList.contains c)

open Scan

/-- The byte that a percent sign and two hexadecimal digits stand for. -/
def escapedByte : Scan Nat := do
  unless (← here).char = '%' do fail
  match Text.Numeral.natural? 16 [← ahead 1, ← ahead 2] with
  | none => fail
  | some byte =>
    skipMany 3
    return byte

/-- The bytes that go on with a character, of which the first has been read. -/
def escapedRest : Nat → Scan (List UInt8)
  | 0 => return []
  | more + 1 => do
    let byte ← escapedByte
    unless 0x80 ≤ byte ∧ byte < 0xC0 do fail
    return UInt8.ofNat byte :: (← escapedRest more)

/-- The bytes of an escaped character; the first tells how many there are. -/
def escapedChar : Scan (List UInt8) := do
  let first ← escapedByte
  let more ←
    if first < 0x80 then pure 0
    else if first < 0xC0 then fail
    else if first < 0xE0 then pure 1
    else if first < 0xF0 then pure 2
    else if first < 0xF8 then pure 3
    else fail
  return UInt8.ofNat first :: (← escapedRest more)

/-- The bytes of the characters and escapes that come next. -/
def written (full : Bool) : Scan (List UInt8) := do
  let bytes ← iterate (fun (bytes : List UInt8) => do
    let c := (← here).char
    if c = '%' then return some ((← escapedChar).reverse ++ bytes)
    else if isTagChar full c then
      skip
      return some ((encode [c]).reverse ++ bytes)
    else return none) []
  return bytes.reverse

/-- The tag with given bytes; it ends before the first that is zero. -/
def ofBytes (bytes : List UInt8) : Tag := ⟨bytes.takeWhile (· ≠ 0)⟩

/-- A tag, or a part of one, that is not left out. -/
def nonempty (full : Bool) : Scan Tag := do
  let bytes ← written full
  if bytes.isEmpty then fail
  return ofBytes bytes

/-- What looks like a handle, and whether it is one for sure: only then a second exclamation mark
ends it. -/
def handle : Scan (String × Bool) := do
  unless (← here).char = '!' do fail
  skip
  let name ← takeWhile isWordChar
  if (← here).char = '!' then
    skip
    return (String.ofList ('!' :: name ++ ['!']), true)
  else return (String.ofList ('!' :: name), false)

/-- A tag with the meanings of the handles that it may be written with. -/
def read (handles : List (String × Tag)) : Scan Tag := do
  if (← ahead 1) = '<' then
    skipMany 2
    let tag ← nonempty true
    unless (← here).char = '>' do fail
    skip
    return tag
  else
    let (name, ended) ← handle
    let rest ←
      if ended then nonempty false
      else ofBytes <$> (encode (name.toList.drop 1) ++ ·) <$> written false
    if rest.bytes.isEmpty ∧ !ended then return nonSpecific
    match handles.lookup (if ended then name else "!") with
    | none => fail
    | some front => return front.extend rest

/-- What a directive says about a handle. -/
def directive : Scan (String × Tag) := do
  let _ ← takeWhile isBlank
  let (name, ended) ← handle
  unless ended ∨ name = "!" do fail
  unless isBlank (← here).char do fail
  let _ ← takeWhile isBlank
  let front ← nonempty true
  unless isGap (← here).char do fail
  return (name, front)

def render (tag : Tag) : List Char :=
  '!' :: '<' :: tag.bytes.flatMap (fun byte =>
    let c := Char.ofNat byte.toNat
    if isTagChar true c then [c]
    else '%' :: [byte.toNat / 16, byte.toNat % 16].map Nat.digitChar) ++ ['>']

end Tag

end TypeDictionary.Yaml
