import TypeDictionary.Yaml.Lookup

/-!
# Data

A node in which every scalar has been read for what it is: what its tag says, or without a tag what
it looks like if it is written plain, and otherwise a text. Integers are those of 64 bits, with or
without a sign. Nothing is known of what a tag of the document's own stands for, so no node with one
is read.

The slots of a shape have names and places. A table fills them by name or by place, in any order and
beside other keys; a list fills them in order.
-/

namespace TypeDictionary.Yaml

/-- What a node says. Nothing asks which number a number is that is no integer. -/
inductive Datum
  | null
  | boolean (value : Bool)
  | integer (value : Int)
  | number
  | text (value : String)
  | list (items : List Datum)
  | table (pairs : List (Datum × Datum))
deriving Repr, Inhabited

namespace Datum

/-- What a plain scalar says, given what it reads like. -/
def ofKind? (written : String) : Kind → Option Datum
  | .null => some null
  | .boolean value => some (boolean value)
  | .integer value =>
    if -0x8000000000000000 ≤ value ∧ value < 0x10000000000000000 then some (integer value) else none
  | .number => some number
  | .text => some (text written)

/-- What a scalar without a tag says. -/
def ofScalar? (written : String) (style : Style) : Option Datum :=
  if style = .plain then ofKind? written (Kind.ofPlain written) else some (text written)

/-- What a scalar with a tag says. -/
def ofTagged? (tag : Tag) (written : String) (style : Style) : Option Datum :=
  if tag = .boolean then (Kind.boolean? written).map boolean
  else if tag = .integer then do ofKind? written (.integer (← Kind.integer? written.toList))
  else if tag = .number then if Kind.isNumber written.toList then some number else none
  else if tag = .null then if written ∈ Kind.nullWords then some null else none
  else if tag.isNamed then none
  else if tag.isLocal then ofScalar? written style
  else some (text written)

mutual

/-- What a node says, unless it holds a reference, a tag of the document's own, or an integer of
more than 64 bits. -/
def ofNode? : Node → Option Datum
  | .scalar written style => ofScalar? written style
  | .sequence items => (ofItems? items).map list
  | .mapping pairs => (ofPairs? pairs).map table
  | .tagged tag (.scalar written style) => ofTagged? tag written style
  | .tagged tag node => if tag.isNamed then none else ofNode? node
  | .anchored _ node => ofNode? node
  | .reference _ => none

def ofItems? : List Node → Option (List Datum)
  | [] => some []
  | item :: rest => do return (← ofNode? item) :: (← ofItems? rest)

def ofPairs? : List (Node × Node) → Option (List (Datum × Datum))
  | [] => some []
  | (key, value) :: rest => do return (← ofNode? key, ← ofNode? value) :: (← ofPairs? rest)

end

def isText (word : String) : Datum → Bool
  | text value => value = word
  | _ => false

/-- Whether a datum can stand for a slot: a name or a place. -/
def isSlot : Datum → Bool
  | text _ => true
  | integer value => decide (0 ≤ value)
  | _ => false

/-- Whether a datum stands for the slot with a name and a place. -/
def standsFor (name : String) (place : Nat) : Datum → Bool
  | text value => value = name
  | integer value => decide (value = place)
  | _ => false

/-- What fills the slots with the given names. No slot is filled twice, and a list holds nothing
but what fills them. -/
def slots? (names : List String) : Datum → Option (List (Option Datum))
  | list items =>
    if items.length ≤ names.length then
      some (names.zipIdx.map fun (_, place) => items[place]?)
    else none
  | table pairs =>
    if pairs.all fun pair => pair.1.isSlot then
      names.zipIdx.mapM fun (name, place) =>
        atMostOne? ((pairs.filter fun pair => pair.1.standsFor name place).map Prod.snd)
    else none
  | _ => none

def text? : Datum → Option String
  | text value => some value
  | _ => none

def integer? : Datum → Option Int
  | integer value => some value
  | _ => none

def items? : Datum → Option (List Datum)
  | list items => some items
  | _ => none

end Datum

end TypeDictionary.Yaml
