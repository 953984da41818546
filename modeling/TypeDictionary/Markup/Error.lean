/-!
# Errors of markup documents

What can be wrong with a document, where, and how it is said. While reading, a place is kept as the
number of characters that were left; it becomes a row and a column only when an error is shown.
-/

namespace TypeDictionary.Markup

/-- A place in a text: row and column count from one, and a column is a character after the last
line feed. -/
structure Position where
  row : Nat
  column : Nat
deriving DecidableEq, Repr

namespace Position

def advance (position : Position) (c : Char) : Position :=
  if c = '\n' then ⟨position.row + 1, 1⟩ else ⟨position.row, position.column + 1⟩

/-- The place in a text at which a number of characters are left. -/
def ofLeft (text : List Char) (left : Nat) : Position :=
  (text.take (text.length - left)).foldl advance ⟨1, 1⟩

def display (position : Position) : String := s!"{position.row}:{position.column}"

end Position

/-- A name as written: the part before the colon, empty if there is none, and the part after it. -/
structure QName where
  space : String
  localName : String
deriving DecidableEq, Repr, Inhabited

def QName.display (name : QName) : String :=
  if name.space.isEmpty then name.localName else s!"{name.space}:{name.localName}"

/-- Kinds of characters that the grammar asks for by description. -/
inductive Expectation
  | whitespace
  | quote
deriving DecidableEq, Repr

/-- The ways in which a document can fail to be well formed. -/
inductive Cause
  | endOfStream
  | unexpectedChar (expected actual : Char)
  | unexpectedKind (expected : Expectation) (actual : Char)
  | missingText (text : String)
  | invalidName
  | unknownToken
  | forbiddenChar (c : Char)
  | misplacedDeclaration
  | doctype
  | noRoot
  | unclosedRoot
  | wrongCloseTag (expected actual : QName)
  | invalidComment
  | sectionEndInText
  | malformedReference
  | unknownEntity (name : String)
  | duplicateAttribute (name : String)
  | duplicateNamespace (name : String)
  | unknownNamespace (name : String)
  | xmlBoundElsewhere
  | xmlNamespaceRebound
  | xmlnsNamespaceDeclared
  | xmlnsElement
deriving DecidableEq, Repr

/-- A cause together with the number of characters left at its place. -/
structure Fault where
  cause : Cause
  left : Nat
deriving DecidableEq, Repr

structure Error where
  cause : Cause
  position : Position
deriving DecidableEq, Repr

/-- The error that a fault is in the document it was found in. -/
def Fault.toError (fault : Fault) (text : List Char) : Error :=
  ⟨fault.cause, Position.ofLeft text fault.left⟩

/-- A forbidden character by its code point, and NUL by its short escape. -/
def showForbidden (c : Char) : String :=
  if c.toNat = 0 then "'\\0'"
  else "'\\u\x7b" ++ String.ofList (Nat.toDigits 16 c.toNat) ++ "\x7d'"

def Error.message (error : Error) : String :=
  let place := error.position.display
  match error.cause with
  | .endOfStream => "unexpected end of stream"
  | .unexpectedChar expected actual => s!"expected '{expected}' not '{actual}' at {place}"
  | .unexpectedKind .whitespace actual => s!"expected a whitespace not '{actual}' at {place}"
  | .unexpectedKind .quote actual => s!"expected a quote not '{actual}' at {place}"
  | .missingText text => s!"expected '{text}' at {place}"
  | .invalidName => s!"invalid name token at {place}"
  | .unknownToken => s!"unknown token at {place}"
  | .forbiddenChar c => s!"a non-XML character {showForbidden c} found at {place}"
  | .misplacedDeclaration => s!"unexpected XML declaration at {place}"
  | .doctype => "XML with DTD detected"
  | .noRoot => "the document does not have a root node"
  | .unclosedRoot => "the root node was opened but never closed"
  | .wrongCloseTag expected actual =>
    s!"expected '{expected.display}' tag, not '{actual.display}' at {place}"
  | .invalidComment => s!"comment at {place} contains '--'"
  | .sectionEndInText => s!"']]>' at {place} is not allowed inside a character data"
  | .malformedReference => s!"malformed entity reference at {place}"
  | .unknownEntity name => s!"unknown entity reference '{name}' at {place}"
  | .duplicateAttribute name => s!"attribute '{name}' at {place} is already defined"
  | .duplicateNamespace name => s!"namespace '{name}' at {place} is already defined"
  | .unknownNamespace name => s!"an unknown namespace prefix '{name}' at {place}"
  | .xmlBoundElsewhere => s!"'xml' namespace prefix mapped to wrong URI at {place}"
  | .xmlNamespaceRebound => s!"the 'xml' namespace URI is used for not 'xml' prefix at {place}"
  | .xmlnsNamespaceDeclared => s!"the 'xmlns' URI is used at {place}, but it must not be declared"
  | .xmlnsElement => s!"the 'xmlns' prefix is used at {place}, but it must not be"

end TypeDictionary.Markup
