import TypeDictionary.Markup.Document
import TypeDictionary.Text.File

/-!
# Dictionary documents

A dictionary document comes as text, as the bytes of a node's value, or as a file. Whichever it is,
reading it gives the element tree that models are built from.
-/

namespace TypeDictionary

/-- Where the text of a dictionary comes from. -/
inductive Source
  | text (characters : String)
  | bytes (octets : List UInt8)
  | file (contents : Text.File)

inductive ReadError
  | notUtf8 (error : Text.Utf8.Error)
  | malformed (error : Markup.Error)
  | unreadable (error : Text.FileError)
deriving DecidableEq, Repr

def ReadError.message : ReadError → String
  | notUtf8 error => "schema document is not valid UTF-8: " ++ error.message
  | malformed error => "malformed schema document: " ++ error.message
  | unreadable error => "failed to read schema document: " ++ error.message

namespace Source

def characters : Source → Except ReadError (List Char)
  | .text characters => .ok characters.toList
  | .bytes octets => (Text.Utf8.decode octets).mapError .notUtf8
  | .file contents => contents.text.mapError .unreadable

/-- The element tree of a source. -/
def read (source : Source) : Except ReadError Markup.Element := do
  (Markup.parse (← source.characters)).mapError .malformed

end Source

end TypeDictionary
