import TypeDictionary.Markup.Reference

/-!
# Start tags

A start tag is read attribute by attribute, each checked as soon as its value is known: namespace
declarations are taken aside, everything else is kept. Only at the end of the tag, when all of its
declarations are known, are prefixes looked up and attributes compared with each other.
-/

namespace TypeDictionary.Markup

open Text (Reader)

/-- The namespace that the prefix `xml` always stands for. -/
def xmlNamespace : String := "http://www.w3.org/XML/1998/namespace"

/-- The namespace of namespace declarations, which no document may declare. -/
def xmlnsNamespace : String := "http://www.w3.org/2000/xmlns/"

/-- Prefixes with the namespaces they stand for, inner declarations first. -/
abbrev Bindings := List (String × String)

/-- An attribute as written, with a mark of its place. -/
structure Attribute where
  start : List Char
  name : QName
  value : String

/-- An attribute up to its closing quote: its place, its name, and its value as written together
with what was left behind the value. -/
def rawAttribute : Read (List Char × QName × List Char × List Char) := do
  let start ← remaining
  let name ← qualifiedName
  let _ ← skipSpace
  expectChar '='
  let _ ← skipSpace
  match ← remaining with
  | [] => fail .endOfStream
  | quote :: _ =>
    if quote ≠ '"' ∧ quote ≠ '\'' then fail (.unexpectedKind .quote (leadByte quote))
    Reader.skip
    let value ← charsUntil fun left => left.head? = some quote ∨ left.head? = some '<'
    let after ← remaining
    expectChar quote
    return (start, name, value, after)

def Attribute.read : Read Attribute := do
  let (start, name, value, after) ← rawAttribute
  let value ← rereadSlice value after attributeValue
  return ⟨start, name, String.ofList value⟩

/-- A start tag as far as it has been read: the place of its name, the name, the attributes that are
not declarations, and the prefixes that it declares. -/
structure StartTag where
  start : List Char
  name : QName
  attributes : List Attribute
  declared : Bindings

namespace StartTag

def add (tag : StartTag) (attr : Attribute) : Read StartTag := do
  let failHere : Cause → Read Unit := failAt attr.start
  let declared := attr.name.localName
  if attr.name.space = "xmlns" then
    if attr.value = xmlnsNamespace then failHere .xmlnsNamespaceDeclared
    if declared = "xml" ∧ attr.value ≠ xmlNamespace then failHere .xmlBoundElsewhere
    if declared ≠ "xml" ∧ attr.value = xmlNamespace then failHere .xmlNamespaceRebound
    if declared = "xml" then return tag
    if tag.declared.any (·.1 = declared) then failHere (.duplicateNamespace declared)
    return { tag with declared := tag.declared ++ [(declared, attr.value)] }
  else if declared = "xmlns" then
    if attr.value = xmlNamespace then failHere .xmlNamespaceRebound
    if attr.value = xmlnsNamespace then failHere .xmlnsNamespaceDeclared
    return tag
  else
    return { tag with attributes := tag.attributes ++ [attr] }

/-- The namespace that a prefix stands for; without one there is no namespace. -/
def namespaceOf (bindings : Bindings) (start : List Char) (space : String) :
    Read (Option String) :=
  if space.isEmpty then return none
  else match bindings.lookup space with
    | some uri => return some uri
    | none => failAt start (.unknownNamespace space)

/-- Looks up the prefix of every attribute and refuses two attributes of one name in one
namespace. `earlier` holds the names met so far. -/
def checkAttributes (bindings : Bindings) (earlier : List (Option String × String)) :
    List Attribute → Read Unit
  | [] => return ()
  | attr :: rest => do
    let uri ← namespaceOf (("xml", xmlNamespace) :: bindings) attr.start attr.name.space
    let key := (uri, attr.name.localName)
    if key ∈ earlier then failAt attr.start (.duplicateAttribute attr.name.localName)
    checkAttributes bindings (key :: earlier) rest

/-- Checks a complete tag under the declarations around it, and gives the bindings inside it. -/
def resolve (tag : StartTag) (around : Bindings) : Read Bindings := do
  let bindings := tag.declared ++ around
  checkAttributes bindings [] tag.attributes
  let _ ← namespaceOf bindings tag.start tag.name.space
  return bindings

end StartTag

/-- How a start tag ended: with content to follow, without content, or because the document did. -/
inductive TagEnd
  | opened
  | closed
  | cut
deriving DecidableEq

/-- One step through the inside of a start tag, which stops once its end is known. -/
def startTagStep : StartTag × TagEnd → Read (Option (StartTag × TagEnd))
  | (_, .opened) | (_, .closed) => return none
  | (tag, .cut) => do
    if (← remaining).isEmpty then return none
    let spaced ← skipSpace
    match ← remaining with
    | [] => fail .endOfStream
    | '/' :: _ =>
      Reader.skip
      expectChar '>'
      return some (tag, .closed)
    | '>' :: _ =>
      Reader.skip
      return some (tag, .opened)
    | c :: _ =>
      if !spaced then fail (.unexpectedKind .whitespace (leadByte c))
      return some (← tag.add (← Attribute.read), .cut)

/-- A start tag from its `<` on, and how it ended. -/
def startTag : Read (StartTag × TagEnd) := do
  expectText "<"
  let start ← remaining
  let name ← qualifiedName
  if name.space = "xmlns" then failAt start .xmlnsElement
  Reader.iterate startTagStep (⟨start, name, [], []⟩, .cut)

end TypeDictionary.Markup
