import TypeDictionary.Text.Utf8

/-!
# Text files

Reading a file as text fails if there is no such file or if its bytes are not UTF-8. The library
does not touch files: a file is given by its bytes, if it exists.
-/

namespace TypeDictionary.Text

/-- The bytes of a file, if it exists. -/
abbrev File := Option (List UInt8)

/-- Why a file has no text. -/
inductive FileError
  | notFound
  | notText
deriving DecidableEq, Repr

def FileError.message : FileError → String
  | .notFound => "No such file or directory (os error 2)"
  | .notText => "stream did not contain valid UTF-8"

def File.text : File → Except FileError (List Char)
  | none => .error .notFound
  | some bytes => (Utf8.decode bytes).mapError fun _ => .notText

end TypeDictionary.Text
