import TypeDictionary.Yaml.ScalarText
import TypeDictionary.Yaml.Tag

/-!
# Tokens

What a text consists of. Block structure shows only in the columns of a text, but it has tokens of
its own: the fronts and ends of block collections, and the keys of mappings.

Handles and the names of anchors have no meaning beyond the text, so tokens hold whole tags, and
numbers in place of names.
-/

namespace TypeDictionary.Yaml

/-- The tokens that nodes are made of. -/
inductive Token
  | versionDirective
  | tagDirective
  | documentStart
  | documentEnd
  | blockSequenceStart
  | blockMappingStart
  | blockEnd
  | flowSequenceStart
  | flowSequenceEnd
  | flowMappingStart
  | flowMappingEnd
  | blockEntry
  | flowEntry
  | key
  | value
  | anchor (number : Nat)
  | reference (number : Nat)
  | tag (tag : Tag)
  | scalar (text : String) (style : Style)
deriving DecidableEq, Repr

end TypeDictionary.Yaml
