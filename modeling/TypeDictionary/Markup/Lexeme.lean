import TypeDictionary.Markup.CharClass
import TypeDictionary.Markup.Error
import TypeDictionary.Text.Reader

/-!
# Lexemes of markup

The smallest readers of the grammar: space, fixed texts, names, and runs of characters up to a
delimiter. Comments and processing instructions are read here too, since nothing of them is kept.
-/

namespace TypeDictionary.Markup

open Text (Reader)

abbrev Read (α : Type) := Reader Char Fault α

def remaining : Read (List Char) := Reader.remaining

def fail {α : Type} (cause : Cause) : Read α := Reader.failWith fun left => ⟨cause, left.length⟩

/-- Fails at a place marked by what was left there. -/
def failAt {α : Type} (mark : List Char) (cause : Cause) : Read α :=
  Reader.failWith fun _ => ⟨cause, mark.length⟩

/-- Uses the given text if it comes next, and tells whether it does. -/
def accept (text : String) : Read Bool := Reader.accept text.toList

def skipSpace : Read Bool := do
  let space ← Reader.takeWhile isSpace
  return !space.isEmpty

def expectChar (expected : Char) : Read Unit := do
  match ← remaining with
  | [] => fail .endOfStream
  | actual :: _ =>
    if actual = expected then Reader.skip
    else fail (.unexpectedChar expected (leadByte actual))

def expectText (text : String) : Read Unit := do
  unless ← accept text do fail (.missingText text)

/-- Uses and returns the characters before the first place where `stop` holds of what is left, or
all that are left. A character that no document may hold is an error on the way. -/
def charsUntil (stop : List Char → Bool) : Read (List Char) := do
  let taken ← Reader.iterate (fun taken => do
    match ← remaining with
    | [] => return none
    | c :: rest =>
      if !isAllowed c then fail (.forbiddenChar c)
      else if stop (c :: rest) then return none
      else
        Reader.skip
        return some (c :: taken)) []
  return taken.reverse

def startsWith (text : String) (left : List Char) : Bool := text.toList.isPrefixOf left

/-- Uses and returns the characters before a delimiter, and uses the delimiter. -/
def charsThrough (delimiter : String) : Read (List Char) := do
  let taken ← charsUntil (startsWith delimiter)
  expectText delimiter
  return taken

/-- A name that may hold colons anywhere. -/
def name : Read (List Char) := do
  match ← remaining with
  | [] => fail .invalidName
  | c :: _ => if isNameStart c then Reader.takeWhile isNameChar else fail .invalidName

/-- Whether a text is empty or begins as a name does. -/
def beginsAsName : List Char → Bool
  | [] => true
  | c :: _ => isNameStart c

/-- A qualified name: at most one colon, and a name on each side of it, the left one possibly
empty. -/
def qualifiedName : Read QName := do
  let start ← remaining
  let chars ← Reader.takeWhile isNameChar
  let (space, localName) :=
    match chars.dropWhile (· ≠ ':') with
    | [] => ([], chars)
    | _ :: localName => (chars.takeWhile (· ≠ ':'), localName)
  if localName.isEmpty ∨ ':' ∈ localName ∨ !beginsAsName space ∨ !beginsAsName localName then
    failAt start .invalidName
  return ⟨String.ofList space, String.ofList localName⟩

/-- Whether two hyphens stand in a row, or one at the end. -/
def hasDashes : List Char → Bool
  | [] => false
  | ['-'] => true
  | '-' :: '-' :: _ => true
  | _ :: rest => hasDashes rest

/-- A comment, whose text may not be mistaken for its end. -/
def comment : Read Unit := do
  let start ← remaining
  expectText "<!--"
  let text ← charsThrough "-->"
  if hasDashes text then failAt start .invalidComment

/-- A processing instruction. What reads like the declaration is one only at the very front. -/
def instruction : Read Unit := do
  if startsWith "<?xml " (← remaining) then fail .misplacedDeclaration
  expectText "<?"
  let _ ← name
  let _ ← skipSpace
  let _ ← charsThrough "?>"

end TypeDictionary.Markup
