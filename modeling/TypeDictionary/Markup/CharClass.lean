import TypeDictionary.Text.CodePoints

/-!
# Character classes of markup

The four space characters, the characters a document may hold at all, and those that names are made
of. A colon is a name character here; readers of qualified names split at it afterwards.
-/

namespace TypeDictionary.Markup

/-- Whether a character separates markup. -/
def isSpace (c : Char) : Bool := c = ' ' ∨ c = '\t' ∨ c = '\r' ∨ c = '\n'

def isAllowed (c : Char) : Bool :=
  if c.toNat < 0x20 then isSpace c else c.toNat ≠ 0xFFFE ∧ c.toNat ≠ 0xFFFF

/-- The characters that a name can begin with. -/
def nameStart : Text.CodePoints :=
  [(0x3A, 0x3A), (0x41, 0x5A), (0x5F, 0x5F), (0x61, 0x7A), (0xC0, 0xD6), (0xD8, 0xF6),
   (0xF8, 0x2FF), (0x370, 0x37D), (0x37F, 0x1FFF), (0x200C, 0x200D), (0x2070, 0x218F),
   (0x2C00, 0x2FEF), (0x3001, 0xD7FF), (0xF900, 0xFDCF), (0xFDF0, 0xFFFD), (0x10000, 0xEFFFF)]

/-- The further characters that a name can go on with. -/
def nameRest : Text.CodePoints :=
  [(0x2D, 0x2E), (0x30, 0x39), (0xB7, 0xB7), (0x300, 0x36F), (0x203F, 0x2040)]

def isNameStart (c : Char) : Bool := nameStart.has c

def isNameChar (c : Char) : Bool := nameStart.has c || nameRest.has c

/-- The first byte of a character, as the Latin-1 character with that code: messages about
unexpected input show bytes. -/
def leadByte (c : Char) : Char :=
  let n := c.toNat
  if n < 0x80 then c
  else if n < 0x800 then Char.ofNat (0xC0 + n / 0x40)
  else if n < 0x10000 then Char.ofNat (0xE0 + n / 0x1000)
  else Char.ofNat (0xF0 + n / 0x40000)

end TypeDictionary.Markup
