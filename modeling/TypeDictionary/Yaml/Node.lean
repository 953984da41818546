import TypeDictionary.Yaml.Lexer

/-!
# Nodes

The tree that the tokens of a document form. A scalar keeps how it is written, since only one that
is written plain can be anything but a text by itself. A tag or an anchor is a node around the one
that it belongs to, and a reference to an anchor is a node of its own.

Nesting is limited by the number of tokens, which no document exceeds: every open collection has a
token of its own.
-/

namespace TypeDictionary.Yaml

/-- A scalar, a sequence, a mapping in order of writing, one of them behind a tag or an anchor, or
a reference to an anchor. -/
inductive Node
  | scalar (text : String) (style : Style)
  | sequence (items : List Node)
  | mapping (pairs : List (Node × Node))
  | tagged (tag : Tag) (node : Node)
  | anchored (anchor : Nat) (node : Node)
  | reference (anchor : Nat)
deriving Repr, Inhabited

namespace Node

def nothing : Node := scalar "" .plain

def bare : Node → Node
  | tagged _ node | anchored _ node => node.bare
  | node => node

abbrev Compose (α : Type) := Text.Reader Token Malformed α

namespace Compose

def fail {α : Type} : Compose α := Text.Reader.failWith fun _ => {}

def next : Compose (Option Token) := do return (← Text.Reader.remaining).head?

def skip : Compose Unit := Text.Reader.skip

/-- Uses a given token if it comes next, and tells whether it does. -/
def accept (token : Token) : Compose Bool := Text.Reader.accept [token]

/-- A node, or nothing if one of the given tokens comes next or none does. -/
def orNothing (node : Compose Node) (ends : List Token) : Compose Node := do
  match ← next with
  | none => return nothing
  | some token => if token ∈ ends then return nothing else node

/-- Items up to a step that answers `none`, in order. -/
def many {α : Type} (step : Compose (Option α)) : Compose (List α) := do
  let (items, _) ← Text.Reader.iterate (fun (items, ended) => do
    if ended then return none
    match ← step with
    | some item => return some (item :: items, false)
    | none => return some (items, true)) ([], false)
  return items.reverse

/-- The items of a block sequence and the token that closes it. -/
def blockSequence (node : Compose Node) : Compose Node :=
  sequence <$> many do
    if ← accept .blockEntry then
      some <$> orNothing node [.blockEntry, .blockEnd]
    else if ← accept .blockEnd then return none
    else fail

/-- The items of a sequence that is not indented from the key before it; nothing closes it. -/
def alignedSequence (node : Compose Node) : Compose Node :=
  sequence <$> many do
    if ← accept .blockEntry then
      some <$> orNothing node [.blockEntry, .key, .value, .blockEnd]
    else return none

def valueAfter (node : Compose Node) (ends : List Token) : Compose Node := do
  if ← accept .value then orNothing node ends else return nothing

/-- The pairs of a block mapping and the token that closes it. -/
def blockMapping (node : Compose Node) : Compose Node :=
  mapping <$> many do
    if ← accept .key then
      let key ← orNothing node [.key, .value, .blockEnd]
      let value ← valueAfter node [.key, .value, .blockEnd]
      return some (key, value)
    else if ← accept .blockEnd then return none
    else fail

/-- The items of a flow collection, with commas between them and perhaps one behind them, and the
token that closes it. -/
def flowItems {α : Type} (closing : Token) (item : Compose α) : Compose (List α) := do
  let (items, _) ← Text.Reader.iterate (fun (items, ended) => do
    if ended then return none
    if ← accept closing then return some (items, true)
    unless items.isEmpty do
      unless ← accept .flowEntry do fail
    if ← accept closing then return some (items, true)
    return some ((← item) :: items, false)) ([], false)
  return items.reverse

/-- A pair of a flow sequence. Where a question mark comes right before a colon, a comma or the
closing bracket, the key is left out, and that token goes with the question mark: a value needs a
colon of its own behind it. -/
def announcedPair (node : Compose Node) : Compose (Node × Node) := do
  let _ ← accept .key
  let key ←
    match ← next with
    | some .value | some .flowEntry | some .flowSequenceEnd => do
      skip
      pure nothing
    | _ => node
  let value ← valueAfter node [.flowEntry, .flowSequenceEnd]
  return (key, value)

/-- The items of a flow sequence. A pair among them is a mapping of its own. -/
def flowSequence (node : Compose Node) : Compose Node :=
  sequence <$> flowItems .flowSequenceEnd do
    if (← next) = some .key then return mapping [← announcedPair node] else node

/-- The pairs of a flow mapping. A key without a question mark or a colon has no value. -/
def flowMapping (node : Compose Node) : Compose Node :=
  mapping <$> flowItems .flowMappingEnd do
    if ← accept .key then
      let key ← orNothing node [.value, .flowEntry, .flowMappingEnd]
      let value ← valueAfter node [.flowEntry, .flowMappingEnd]
      return (key, value)
    else return (← node, nothing)

def anchor? : Compose (Option Nat) := do
  match ← next with
  | some (.anchor number) =>
    skip
    return some number
  | _ => return none

def tag? : Compose (Option Tag) := do
  match ← next with
  | some (.tag tag) =>
    skip
    return some tag
  | _ => return none

/-- What stands in front of a node: an anchor and a tag in either order, or one of them, or
neither. -/
def properties : Compose (Option Nat × Option Tag) := do
  match ← anchor? with
  | some number => return (some number, ← tag?)
  | none =>
    match ← tag? with
    | some tag => return (← anchor?, some tag)
    | none => return (none, none)

def withProperties (anchor : Option Nat) (tag : Option Tag) (node : Node) : Node :=
  let node := tag.elim node fun tag => tagged tag node
  anchor.elim node fun anchor => anchored anchor node

/-- A node in which collections nest up to a depth: in block style if `block` holds, and as a
sequence aligned with its key if `aligned` does. Behind an anchor or a tag a node may be left out. A
tag that says nothing does not count in front of a scalar. -/
def node (block aligned : Bool) : Nat → Compose Node
  | 0 => fail
  | depth + 1 => do
    if let some (.reference number) ← next then
      skip
      return reference number
    let (anchor, tag) ← properties
    let leftOut : Compose Node :=
      if anchor.isNone && tag.isNone then fail else pure (withProperties anchor tag nothing)
    match ← next with
    | some (.scalar text style) =>
      skip
      return withProperties anchor (tag.filter (· ≠ .nonSpecific)) (scalar text style)
    | some .flowSequenceStart =>
      skip
      withProperties anchor tag <$> flowSequence (node false false depth)
    | some .flowMappingStart =>
      skip
      withProperties anchor tag <$> flowMapping (node false false depth)
    | some .blockEntry =>
      if !aligned then leftOut
      else withProperties anchor tag <$> alignedSequence (node true false depth)
    | some .blockSequenceStart =>
      if !block then leftOut
      else do
        skip
        withProperties anchor tag <$> blockSequence (node true false depth)
    | some .blockMappingStart =>
      if !block then leftOut
      else do
        skip
        withProperties anchor tag <$> blockMapping (node true true depth)
    | _ => leftOut

/-- The directives in front of a document, of which at most one names a version. -/
def directives : Compose (List Token) := do
  let directives ← many do
    match ← next with
    | some .versionDirective =>
      skip
      return some .versionDirective
    | some .tagDirective =>
      skip
      return some .tagDirective
    | _ => return none
  if 1 < directives.count .versionDirective then fail
  return directives

/-- A whole text: at most one document, perhaps with directives in front and marks around it. -/
def document (depth : Nat) : Compose Node := do
  let directives ← directives
  let marked ← accept .documentStart
  if !directives.isEmpty ∧ !marked then fail
  let root ← orNothing (node true false depth) (if marked then [.documentEnd] else [])
  let _ ← many do
    if ← accept .documentEnd then return some () else return none
  unless (← next).isNone do fail
  return root

end Compose

/-- The node that a text holds, or nothing if it holds none. A text without a document holds what
stands where nothing is written. -/
def ofText? (text : String) : Option Node := do
  let tokens ← Token.ofText? text.toList
  match (Compose.document (tokens.length + 1)).run tokens with
  | .ok node => some node
  | .error _ => none

end Node

end TypeDictionary.Yaml
