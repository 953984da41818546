import TypeDictionary.Text.CodePoints

/-!
# Blank characters

The property `White_Space` of Unicode and the trimming of a text by it. Blank here is wider than in
markup, where only four characters count as space.
-/

namespace TypeDictionary.Text

/-- The ranges of property `White_Space`, in increasing order. -/
def Blank.ranges : CodePoints :=
  [(0x0009, 0x000D), (0x0020, 0x0020), (0x0085, 0x0085), (0x00A0, 0x00A0), (0x1680, 0x1680),
   (0x2000, 0x200A), (0x2028, 0x2029), (0x202F, 0x202F), (0x205F, 0x205F), (0x3000, 0x3000)]

/-- Whether a character has the property `White_Space`. -/
def isBlank (c : Char) : Bool := Blank.ranges.has c

/-- A text without the blank characters at its two ends. -/
def trim (text : List Char) : List Char :=
  ((text.dropWhile isBlank).reverse.dropWhile isBlank).reverse

end TypeDictionary.Text
