import TypeDictionary.Proofs.WrittenNode

/-!
# Nodes from their tokens

The tokens of a value are read as that value: those of its parts one behind the other, with a token
behind each that is not taken for more of it. Collections nest at most as deep as there are tokens.
-/

namespace TypeDictionary.Yaml

open Text (Reader)
open Text.Reader (result)

namespace Node

namespace Compose

variable {α : Type} {token : Token} {tokens rest : List Token}

@[simp] theorem result_next (tokens : List Token) :
    result next tokens = .ok (tokens.head?, tokens) := rfl

@[simp] theorem result_skip (token : Token) (rest : List Token) :
    result skip (token :: rest) = .ok ((), rest) := rfl

@[simp] theorem result_accept_cons (token other : Token) (rest : List Token) :
    result (accept token) (other :: rest) =
      .ok (decide (token = other), if token = other then rest else other :: rest) := by
  by_cases same : token = other <;>
    simp [result, accept, Reader.accept, same]

@[simp] theorem result_accept_nil (token : Token) :
    result (accept token) [] = .ok (false, []) := rfl

/-- The loop behind a list of items. -/
def manyStep (step : Compose (Option α)) : List α × Bool → Compose (Option (List α × Bool)) :=
  fun (items, ended) => do
    if ended then return none
    match ← step with
    | some item => return some (item :: items, false)
    | none => return some (items, true)

theorem many_eq (step : Compose (Option α)) :
    many step = (do
      let (items, _) ← Text.Reader.iterate (manyStep step) ([], false)
      return items.reverse) := rfl

section Many

variable {step : Compose (Option α)} {input left : List Token}

theorem result_manyLoop_of_none (h : step.result input = .ok (none, left)) (before : List α) :
    (Reader.iterate (manyStep step) (before, false)).result input = .ok ((before, true), left) := by
  have first : (manyStep step (before, false)).result input = .ok (some (before, true), left) := by
    simp [manyStep, h]
  -- the step that finds no item may use the token that closes the list, or nothing
  rcases Nat.lt_or_eq_of_le (Reader.length_le_of_result h) with progress | stuck
  · rw [Reader.result_iterate_of_some first progress]
    exact Reader.result_iterate_of_none rfl
  · exact Reader.result_iterate_of_stuck first stuck

/-- Items one behind the other are read as a list if each is where any of them or the end
follows. -/
theorem result_many {items : List α} {write : α → List Token} {fits : List Token → Prop}
    (each : ∀ item ∈ items, ∀ left, fits left →
      step.result (write item ++ left) = .ok (some item, left))
    (begins : ∀ item ∈ items, write item ≠ [] ∧ ∀ left, fits (write item ++ left))
    (last : step.result input = .ok (none, left)) (ends : fits input) :
    (many step).result (items.flatMap write ++ input) = .ok (items, left) := by
  have loop (before : List α) : (Reader.iterate (manyStep step) (before, false)).result
      (items.flatMap write ++ input) = .ok ((items.reverse ++ before, true), left) := by
    induction items generalizing before with
    | nil => exact result_manyLoop_of_none last before
    | cons item items ih =>
        rw [List.forall_mem_cons] at each begins
        have next : fits (items.flatMap write ++ input) := by
          cases items with
          | nil => exact ends
          | cons item items =>
              rw [List.flatMap_cons, List.append_assoc]
              exact (begins.2 item List.mem_cons_self).2 _
        have first : (manyStep step (before, false)).result
            (write item ++ (items.flatMap write ++ input)) =
            .ok (some (item :: before, false), items.flatMap write ++ input) := by
          simp [manyStep, each.1 _ next]
        have progress : 0 < (write item).length := List.length_pos_iff.mpr begins.1.1
        rw [List.flatMap_cons, List.append_assoc, Reader.result_iterate_of_some first
          (by simp only [List.length_append]; omega), ih each.2 begins.2, List.reverse_cons,
          List.append_assoc]
        rfl
  rw [many_eq, Reader.result_bind, loop [], Reader.ok_bind, List.append_nil]
  simp

theorem result_many_nil (h : step.result input = .ok (none, left)) :
    (many step).result input = .ok ([], left) := by
  rw [many_eq, Reader.result_bind, result_manyLoop_of_none h []]
  rfl

end Many

theorem result_orNothing {node : Compose Node} {ends : List Token} (h : token ∉ ends) :
    result (orNothing node ends) (token :: rest) = node.result (token :: rest) := by
  simp [orNothing, h]

/-- Whether a token is one that stands in front of a node, or in its place. -/
def isProperty : Token → Bool
  | .anchor _ | .tag _ | .reference _ => true
  | _ => false

theorem result_properties (h : isProperty token = false) :
    result properties (token :: rest) = .ok ((none, none), token :: rest) := by
  cases token <;> first | rfl | exact absurd h Bool.noConfusion

theorem result_withProperties_none (node : Compose Node) (input : List Token) :
    result (withProperties none none <$> node) input = node.result input := by
  rw [Reader.result_map]
  cases node.result input <;> rfl

/-- The loop behind the items of a flow collection. -/
def flowStep (closing : Token) (item : Compose α) :
    List α × Bool → Compose (Option (List α × Bool)) :=
  fun (items, ended) => do
    if ended then return none
    if ← accept closing then return some (items, true)
    unless items.isEmpty do
      unless ← accept .flowEntry do fail
    if ← accept closing then return some (items, true)
    return some ((← item) :: items, false)

theorem flowItems_eq (closing : Token) (item : Compose α) :
    flowItems closing item = (do
      let (items, _) ← Text.Reader.iterate (flowStep closing item) ([], false)
      return items.reverse) := rfl

/-- The token that closes a flow collection may come at once. -/
theorem result_flowItems_nil (closing : Token) (item : Compose α) (rest : List Token) :
    result (flowItems closing item) (closing :: rest) = .ok ([], rest) := by
  have first : (flowStep closing item ([], false)).result (closing :: rest) =
      .ok (some ([], true), rest) := by
    simp [flowStep]
  have loop := (Reader.result_iterate_of_some first (by simp)).trans
    (Reader.result_iterate_of_none rfl)
  rw [flowItems_eq, Reader.result_bind, loop]
  rfl

theorem result_flowSequence_nil (node : Compose Node) (rest : List Token) :
    result (flowSequence node) (.flowSequenceEnd :: rest) = .ok (.sequence [], rest) := by
  rw [flowSequence, Reader.result_map, result_flowItems_nil]
  rfl

/-- A pair of a block mapping, or the token that closes it. -/
def pairStep (node : Compose Node) : Compose (Option (Node × Node)) := do
  if ← accept .key then
    let key ← orNothing node [.key, .value, .blockEnd]
    let value ← valueAfter node [.key, .value, .blockEnd]
    return some (key, value)
  else if ← accept .blockEnd then return none
  else fail

theorem blockMapping_eq (node : Compose Node) :
    blockMapping node = mapping <$> many (pairStep node) := rfl

/-- An item of a sequence aligned with its key, if there is one more. -/
def itemStep (node : Compose Node) : Compose (Option Node) := do
  if ← accept .blockEntry then
    some <$> orNothing node [.blockEntry, .key, .value, .blockEnd]
  else return none

theorem alignedSequence_eq (node : Compose Node) :
    alignedSequence node = sequence <$> many (itemStep node) := rfl

end Compose

open Compose

variable {rest : List Token} {depth : Nat}

theorem result_node_scalar (text : String) (style : Style) (block aligned : Bool) :
    result (Compose.node block aligned (depth + 1)) (.scalar text style :: rest) =
      .ok (.scalar text style, rest) := by
  have bare := @result_properties (.scalar text style) rest rfl
  simp [Compose.node, bare, withProperties]

theorem result_node_emptySequence (block aligned : Bool) :
    result (Compose.node block aligned (depth + 1))
        (.flowSequenceStart :: .flowSequenceEnd :: rest) = .ok (.sequence [], rest) := by
  have bare := @result_properties .flowSequenceStart (.flowSequenceEnd :: rest) rfl
  simp [Compose.node, bare, withProperties, result_flowSequence_nil]

theorem result_node_entry :
    result (Compose.node true true (depth + 1)) (.blockEntry :: rest) =
      result (alignedSequence (Compose.node true false depth)) (.blockEntry :: rest) := by
  have bare := @result_properties .blockEntry rest rfl
  simp [Compose.node, bare, result_withProperties_none, -Reader.result_map]

theorem result_node_mapping (aligned : Bool) :
    result (Compose.node true aligned (depth + 1)) (.blockMappingStart :: rest) =
      result (blockMapping (Compose.node true true depth)) rest := by
  have bare := @result_properties .blockMappingStart rest rfl
  simp [Compose.node, bare, result_withProperties_none, -Reader.result_map]

theorem itemTokens_eq (items : List Node) :
    itemTokens items = items.flatMap fun item => .blockEntry :: item.tokens := by
  induction items with
  | nil => rfl
  | cons item items ih => simp [itemTokens, ih]

theorem pairTokens_eq (pairs : List (Node × Node)) :
    pairTokens pairs =
      pairs.flatMap fun pair => .key :: pair.1.tokens ++ .value :: pair.2.tokens := by
  induction pairs with
  | nil => rfl
  | cons pair pairs ih => simp [pairTokens, ih]

/-- The tokens of a node are read as that node, unless the hyphen of an item follows. -/
def Composed (node : Node) : Prop :=
  ∀ ⦃depth : Nat⦄ ⦃rest : List Token⦄, node.tokens.length ≤ depth →
    rest.head? ≠ some .blockEntry →
    result (Compose.node true true depth) (node.tokens ++ rest) = .ok (node, rest)

theorem composed_scalar (text : String) (style : Style) : Composed (.scalar text style) := by
  intro depth rest enough _
  obtain ⟨depth, rfl⟩ := Nat.exists_eq_add_of_le' enough
  exact result_node_scalar text style true true

/-- The first token of a value is none that could stand in its place. -/
theorem Writable.tokens {node : Node} (h : Writable node) :
    ∃ token rest, node.tokens = token :: rest ∧ token ∉ [.key, .value, .blockEnd] := by
  cases h with
  | scalar => exact ⟨_, _, rfl, by simp⟩
  | @sequence tables => cases tables <;> exact ⟨_, _, rfl, by simp⟩

theorem length_value_lt {pair : Node × Node} {pairs : List (Node × Node)} (h : pair ∈ pairs) :
    pair.2.tokens.length + 2 ≤ (pairTokens pairs).length := by
  obtain ⟨before, after, rfl⟩ := List.append_of_mem h
  rw [pairTokens_eq]
  simp only [List.flatMap_append, List.flatMap_cons, List.length_append, List.length_cons]
  omega

theorem result_pairStep {key value : Node} {rest : List Token} {depth : Nat} (isKey : IsKey key)
    (writable : Writable value) (composed : Composed value)
    (enough : value.tokens.length ≤ depth + 1) (fits : rest.head? ≠ some .blockEntry) :
    result (pairStep (Compose.node true true (depth + 1)))
        (.key :: key.tokens ++ .value :: value.tokens ++ rest) = .ok (some (key, value), rest) := by
  obtain ⟨word, -, rfl⟩ := isKey
  obtain ⟨token, others, same, notEnd⟩ := writable.tokens
  have read := composed enough fits
  rw [same] at read ⊢
  rw [List.cons_append] at read
  have keyRead : result (orNothing (Compose.node true true (depth + 1)) [.key, .value, .blockEnd])
      (.scalar word .plain :: .value :: token :: (others ++ rest)) =
      .ok (.scalar word .plain, .value :: token :: (others ++ rest)) := by
    rw [result_orNothing (by simp), result_node_scalar]
  have valueRead : result (valueAfter (Compose.node true true (depth + 1))
      [.key, .value, .blockEnd]) (.value :: token :: (others ++ rest)) = .ok (value, rest) := by
    simp [valueAfter, result_orNothing notEnd, read]
  simp [pairStep, Node.tokens, keyRead, valueRead]

/-- A mapping whose values are read is read. -/
theorem Keyed.composed {pairs : List (Node × Node)}
    (table : Keyed (fun value => Writable value ∧ Composed value) pairs) (aligned : Bool)
    {depth : Nat} (enough : (Node.tokens (.mapping pairs)).length ≤ depth) (rest : List Token) :
    result (Compose.node true aligned depth) (Node.tokens (.mapping pairs) ++ rest) =
      .ok (.mapping pairs, rest) := by
  obtain ⟨nonempty, keys, values⟩ := table
  have size : (Node.tokens (.mapping pairs)).length = (pairTokens pairs).length + 2 := by
    simp [Node.tokens]
  -- one level for the mapping and, since it has a pair, one for its keys and values
  obtain ⟨depth, rfl⟩ : ∃ inner, depth = inner + 2 := ⟨depth - 2, by omega⟩
  have ended : result (pairStep (Compose.node true true (depth + 1))) (.blockEnd :: rest) =
      .ok (none, rest) := by
    simp [pairStep]
  have each : ∀ pair ∈ pairs, ∀ left : List Token, left.head? ≠ some .blockEntry →
      result (pairStep (Compose.node true true (depth + 1)))
        (.key :: pair.1.tokens ++ .value :: pair.2.tokens ++ left) = .ok (some pair, left) := by
    intro pair member left fits
    have shorter := length_value_lt member
    exact result_pairStep (keys pair member) (values pair member).1 (values pair member).2
      (by omega) fits
  have all := result_many each (fun pair _ => ⟨by simp, fun left => by simp⟩) ended (by simp)
  have written : Node.tokens (.mapping pairs) ++ rest =
      .blockMappingStart :: (pairTokens pairs ++ .blockEnd :: rest) := by
    simp [Node.tokens]
  rw [← pairTokens_eq] at all
  rw [written, result_node_mapping, blockMapping_eq, Reader.result_map, all]
  rfl

theorem length_item_lt {item : Node} {items : List Node} (h : item ∈ items) :
    item.tokens.length < (itemTokens items).length := by
  obtain ⟨before, after, rfl⟩ := List.append_of_mem h
  rw [itemTokens_eq]
  simp only [List.flatMap_append, List.flatMap_cons, List.length_append, List.length_cons]
  omega

theorem composed_sequence {tables : List (List (Node × Node))}
    (all : ∀ table ∈ tables, Keyed (fun value => Writable value ∧ Composed value) table) :
    Composed (.sequence (tables.map .mapping)) := by
  intro depth rest enough fits
  cases tables with
  | nil =>
      obtain ⟨depth, rfl⟩ : ∃ inner, depth = inner + 1 :=
        ⟨depth - 1, by have : 2 ≤ depth := enough; omega⟩
      exact result_node_emptySequence true true
  | cons table tables =>
      have enough : (itemTokens ((table :: tables).map .mapping)).length ≤ depth := enough
      obtain ⟨depth, rfl⟩ : ∃ inner, depth = inner + 1 := by
        refine ⟨depth - 1, ?_⟩
        simp only [List.map_cons, itemTokens, List.cons_append, List.length_cons] at enough
        omega
      have each : ∀ item ∈ (table :: tables).map .mapping, ∀ left : List Token, True →
          result (itemStep (Compose.node true false depth)) (.blockEntry :: item.tokens ++ left) =
            .ok (some item, left) := by
        intro item member left _
        have shorter := length_item_lt member
        obtain ⟨pairs, isTable, rfl⟩ := List.mem_map.mp member
        have read := (all pairs isTable).composed false (show _ ≤ depth by omega) left
        have read : result (orNothing (Compose.node true false depth)
            [.blockEntry, .key, .value, .blockEnd]) (Node.tokens (.mapping pairs) ++ left) =
            .ok (.mapping pairs, left) := by
          rw [← read]
          exact result_orNothing (by simp)
        simp [itemStep, read]
      have ended : result (itemStep (Compose.node true false depth)) rest = .ok (none, rest) := by
        cases rest with
        | nil => simp [itemStep]
        | cons token rest =>
            have other : Token.blockEntry ≠ token := fun same => fits (congrArg some same.symm)
            simp [itemStep, other]
      have read := result_many each (fun item _ => ⟨by simp, fun _ => trivial⟩) ended trivial
      rw [← itemTokens_eq] at read
      have written : Node.tokens (.sequence ((table :: tables).map .mapping)) ++ rest =
          .blockEntry :: (Node.tokens (.mapping table) ++ itemTokens (tables.map .mapping) ++
            rest) := rfl
      have same : itemTokens ((table :: tables).map .mapping) ++ rest =
          .blockEntry :: (Node.tokens (.mapping table) ++ itemTokens (tables.map .mapping) ++
            rest) := rfl
      rw [same] at read
      rw [written, result_node_entry, alignedSequence_eq, Reader.result_map, read]
      rfl

/-- The tokens of a value that reading brings back are read as that value. -/
theorem Writable.composed {node : Node} (h : Writable node) : Composed node := by
  induction h with
  | scalar => exact composed_scalar _ _
  | sequence nonempty keys writable composed =>
      exact composed_sequence fun table member =>
        ⟨nonempty table member, keys table member, fun pair member' =>
          ⟨writable table member pair member', composed table member pair member'⟩⟩

/-- No directives stand in front of the first token of a mapping. -/
theorem result_directives :
    result directives (.blockMappingStart :: rest) = .ok ([], .blockMappingStart :: rest) := by
  unfold directives
  rw [Reader.result_bind, result_many_nil (by simp; rfl)]
  rfl

/-- A document without directives and marks is read as its root. -/
theorem result_document {pairs : List (Node × Node)}
    (table : Keyed (fun value => Writable value ∧ Composed value) pairs)
    (enough : (Node.tokens (.mapping pairs)).length ≤ depth) :
    result (Compose.document depth) (Node.tokens (.mapping pairs)) = .ok (.mapping pairs, []) := by
  have root := table.composed false enough []
  have ended : result (many (do
      if ← accept .documentEnd then return some () else return none)) [] = .ok ([], []) :=
    result_many_nil (by simp)
  have written : Node.tokens (.mapping pairs) =
      .blockMappingStart :: (pairTokens pairs ++ [.blockEnd]) := rfl
  rw [List.append_nil, written] at root
  rw [written]
  unfold Compose.document
  simp [result_directives, result_orNothing, root, ended]

end Node

end TypeDictionary.Yaml
