import TypeDictionary.Markup.Element
import TypeDictionary.Markup.Tag

/-!
# Documents

Reading a document keeps the elements that are still open in a list, innermost first, so nesting
costs no call stack. The end of the text ends every element that is still open without an error of
its own; only then is it asked whether there was a root and whether it was closed.
-/

namespace TypeDictionary.Markup

open Text (Reader)

/-- An element whose end tag has not come yet, with its finished children, the last one first. -/
structure OpenElement where
  name : QName
  bindings : Bindings
  attributes : List (String × String)
  children : List Element

def OpenElement.close (element : OpenElement) : Element :=
  ⟨element.name.localName, element.attributes, element.children.reverse⟩

/-- The elements that are open, innermost first, and the root once it is closed. -/
structure Tree where
  opened : List OpenElement
  root : Option Element

namespace Tree

def bindings (tree : Tree) : Bindings :=
  match tree.opened with
  | [] => []
  | element :: _ => element.bindings

def attach (tree : Tree) (element : Element) : Tree :=
  match tree.opened with
  | [] => { tree with root := some element }
  | parent :: rest =>
    { tree with opened := { parent with children := element :: parent.children } :: rest }

end Tree

/-- An element's start tag, and what it makes of the tree. -/
def elementStart (tree : Tree) : Read Tree := do
  let (tag, ending) ← startTag
  match ending with
  | .cut => return tree
  | .closed =>
    let _ ← tag.resolve tree.bindings
    return tree.attach ⟨tag.name.localName, attributes tag, []⟩
  | .opened =>
    let bindings ← tag.resolve tree.bindings
    return { tree with opened := ⟨tag.name, bindings, attributes tag, []⟩ :: tree.opened }
where
  attributes (tag : StartTag) : List (String × String) :=
    tag.attributes.map fun written => (written.name.localName, written.value)

/-- An end tag, which must repeat the name of the innermost open element as it was written. -/
def elementEnd (element : OpenElement) (rest : List OpenElement) (tree : Tree) : Read Tree := do
  let start ← remaining
  expectText "</"
  let name ← qualifiedName
  let _ ← skipSpace
  expectChar '>'
  if name ≠ element.name then failAt start (.wrongCloseTag element.name name)
  return { tree with opened := rest }.attach element.close

def literalSection : Read Unit := do
  expectText "<![CDATA["
  let _ ← charsThrough "]]>"

def text : Read Unit := do
  let characters ← charsUntil fun left => left.head? = some '<'
  if holdsSectionEnd characters then fail .sectionEndInText
  rereadSlice characters (← remaining) checkReferences
where
  holdsSectionEnd : List Char → Bool
    | [] => false
    | c :: rest => startsWith "]]>" (c :: rest) || holdsSectionEnd rest

/-- One step through content, which stops when no element is open or nothing is left. -/
def contentStep (tree : Tree) : Read (Option Tree) := do
  match tree.opened with
  | [] => return none
  | element :: rest =>
    match ← remaining with
    | [] => return none
    | ['<'] => fail .unknownToken
    | '<' :: '!' :: '-' :: '-' :: _ => comment; return some tree
    | '<' :: '!' :: left =>
      if startsWith "[CDATA[" left then
        literalSection
        return some tree
      else fail .unknownToken
    | '<' :: '?' :: _ => instruction; return some tree
    | '<' :: '/' :: _ => return some (← elementEnd element rest tree)
    | '<' :: _ => return some (← elementStart tree)
    | _ => text; return some tree

/-- Space that the declaration needs between its parts, though not before its end. -/
def declarationSpace : Read Unit := do
  let spaced ← skipSpace
  match ← remaining with
  | [] => return ()
  | c :: rest =>
    if !spaced ∧ !startsWith "?>" (c :: rest) then
      fail (.unexpectedKind .whitespace (leadByte c))

/-- The declaration at the very front. Its parts are read and ignored. -/
def declaration : Read Unit := do
  expectText "<?xml"
  declarationSpace
  unless startsWith "version" (← remaining) do fail (.missingText "version")
  let _ ← rawAttribute
  declarationSpace
  if startsWith "encoding" (← remaining) then
    let _ ← rawAttribute
    declarationSpace
  if startsWith "standalone" (← remaining) then
    let _ ← rawAttribute
  let _ ← skipSpace
  expectText "?>"

/-- Space, comments and instructions around the root. -/
def miscellaneous : Read Unit :=
  Reader.iterate (fun _ => do
    let _ ← skipSpace
    let left ← remaining
    if startsWith "<!--" left then
      comment
      return some ()
    else if startsWith "<?" left then
      instruction
      return some ()
    else return none) ()

def document : Read Element := do
  let _ ← accept "\ufeff"
  if startsWith "<?xml " (← remaining) then declaration
  miscellaneous
  if startsWith "<!DOCTYPE" (← remaining) then fail .doctype
  let mut tree : Tree := ⟨[], none⟩
  if startsWith "<" (← remaining) then
    tree ← elementStart tree
    tree ← Reader.iterate contentStep tree
  miscellaneous
  unless (← remaining).isEmpty do fail .unknownToken
  if !tree.opened.isEmpty then fail .unclosedRoot
  match tree.root with
  | some root => return root
  | none => fail .noRoot

/-- The element tree of a document. -/
def parse (source : List Char) : Except Error Element :=
  (document.run source).mapError (·.toError source)

end TypeDictionary.Markup
