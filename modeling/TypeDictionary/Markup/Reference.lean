import TypeDictionary.Markup.Lexeme
import TypeDictionary.Text.Numeral

/-!
# References and the values they stand in

A reference names a character by its code or by one of the five predefined names. References stand
in text, where they are only checked, and in attribute values, where they are replaced while line
ends and tabs written literally become spaces. A reference never reaches beyond the text or value
that it begins in.
-/

namespace TypeDictionary.Markup

open Text (Reader)

/-- The character with a code, or the replacement character where there is none. -/
def charOfCode (code : Nat) : Char :=
  if code.isValidChar then Char.ofNat code else '\ufffd'

/-- The characters with predefined names. -/
def predefined? : List Char → Option Char
  | ['q', 'u', 'o', 't'] => some '"'
  | ['a', 'm', 'p'] => some '&'
  | ['a', 'p', 'o', 's'] => some '\''
  | ['l', 't'] => some '<'
  | ['g', 't'] => some '>'
  | _ => none

/-- The rest of a character reference, whose code is written in a base and has 32 bits. -/
def characterReference (start : List Char) (base : Nat) : Read Char := do
  let digits ← Reader.takeWhile fun c => (Text.Numeral.digit? base c).isSome
  match Text.Numeral.natural? base digits with
  | none => failAt start .malformedReference
  | some code =>
    if code < 0x100000000 ∧ isAllowed (charOfCode code) then
      unless ← accept ";" do failAt start .malformedReference
      return charOfCode code
    else failAt start .malformedReference

def entityReference (start : List Char) : Read Char := do
  let name ← Reader.takeWhile isNameChar
  if name.isEmpty ∨ !beginsAsName name then failAt start .malformedReference
  unless ← accept ";" do failAt start .malformedReference
  match predefined? name with
  | some c => return c
  | none => failAt start (.unknownEntity (String.ofList name))

def reference : Read Char := do
  let start ← remaining
  if ← accept "&#x" then characterReference start 16
  else if ← accept "&#" then characterReference start 10
  else
    Reader.skip
    entityReference start

/-- The characters of an attribute value, with references replaced and literal line ends and tabs
turned into single spaces. -/
def attributeValue : Read (List Char) := do
  let value ← Reader.iterate (fun value => do
    match ← remaining with
    | [] => return none
    | '&' :: _ => return some ((← reference) :: value)
    | '\r' :: '\n' :: _ =>
      Reader.skip
      return some value
    | c :: _ =>
      Reader.skip
      return some ((if c = '\r' ∨ c = '\n' ∨ c = '\t' then ' ' else c) :: value)) []
  return value.reverse

def checkReferences : Read Unit :=
  Reader.iterate (fun _ => do
    let _ ← Reader.takeWhile (· ≠ '&')
    match ← remaining with
    | [] => return none
    | _ =>
      let _ ← reference
      return some ()) ()

/-- Reads again, on its own, a slice that has just been used; its faults are where they would be in
the whole. `after` is what was left behind the slice. -/
def rereadSlice {α : Type} (slice after : List Char) (reader : Read α) : Read α := fun input =>
  match reader.run slice with
  | .error fault => .error { fault with left := fault.left + after.length }
  | .ok value => .ok ⟨value, input, 0, by simp⟩

end TypeDictionary.Markup
