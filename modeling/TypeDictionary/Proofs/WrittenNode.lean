import TypeDictionary.Proofs.Restorable

/-!
# Tokens of written nodes

A scalar behind its key, the pairs of a mapping and the items of a sequence are written one after
the other, and what follows is not indented further than they are. So the tokens of each are found
up to the next line that is none of its own, and those of a value by induction on what may be
written.
-/

namespace TypeDictionary.Yaml

open Lexer (Lexes inBlock openMapping)

namespace Node

mutual

/-- The tokens of a node that is written behind a key, or of a whole document. -/
def tokens : Node → List Token
  | scalar text style => [.scalar text style]
  | sequence [] => [.flowSequenceStart, .flowSequenceEnd]
  | sequence (item :: rest) => .blockEntry :: item.tokens ++ itemTokens rest
  | mapping pairs => .blockMappingStart :: pairTokens pairs ++ [.blockEnd]
  | _ => []

def itemTokens : List Node → List Token
  | [] => []
  | item :: rest => .blockEntry :: item.tokens ++ itemTokens rest

def pairTokens : List (Node × Node) → List Token
  | [] => []
  | (key, value) :: rest => .key :: key.tokens ++ .value :: value.tokens ++ pairTokens rest

end

/-- A key that is a word. -/
def IsKey (node : Node) : Prop :=
  ∃ word : String, Lexer.IsWord word.toList ∧ node = scalar word .plain

/-- Pairs that have words for keys and values with a property. -/
structure Keyed (p : Node → Prop) (pairs : List (Node × Node)) : Prop where
  nonempty : pairs ≠ []
  keys : ∀ pair ∈ pairs, IsKey pair.1
  values : ∀ pair ∈ pairs, p pair.2

/-- A value that reading brings back: a scalar in a style that does, or a sequence of mappings that
have words for keys. -/
inductive Writable : Node → Prop
  | scalar {text : String} {style : Style} (restorable : Restorable text.toList style) :
      Writable (.scalar text style)
  | sequence {tables : List (List (Node × Node))} (nonempty : ∀ pairs ∈ tables, pairs ≠ [])
      (keys : ∀ pairs ∈ tables, ∀ pair ∈ pairs, IsKey pair.1)
      (values : ∀ pairs ∈ tables, ∀ pair ∈ pairs, Writable pair.2) :
      Writable (.sequence (tables.map .mapping))

/-- What is written for a node behind its key is found as its tokens. -/
def Lexed (node : Node) : Prop :=
  ∀ ⦃tokens : List Token⦄ ⦃columns : List Nat⦄ ⦃first column : Nat⦄ ⦃spaces rest : List Char⦄,
    first < column → (∀ c ∈ spaces, c = ' ') → spaces.length ≤ first → Settled rest →
    Lexes (inBlock tokens (first :: columns) false) column
      (renderValue first node ++ (spaces ++ rest))
      (inBlock (node.tokens.reverse ++ tokens) (first :: columns) true) spaces.length rest

variable {tokens : List Token} {columns : List Nat} {first column : Nat} {spaces rest : List Char}

theorem isGap_renderValue (column : Nat) (node : Node) (rest : List Char) :
    isGap (front (renderValue column node ++ rest)) = true := by
  have gap : isGap ' ' = true ∧ isGap '\n' = true := by decide
  cases node with
  | sequence items => cases items <;> simp [renderValue, gap]
  | mapping pairs => cases pairs <;> simp [renderValue, gap]
  | _ => simp [renderValue, gap]

theorem lexed_scalar {text : String} {style : Style} (h : Restorable text.toList style) :
    Lexed (.scalar text style) := by
  intro tokens columns first column spaces rest inside onlySpaces outside settled
  have space : Lexes (inBlock tokens (first :: columns) false) column
      (' ' :: (endLine (Written.inStyle (first + 2) text.toList style) ++ (spaces ++ rest)))
      (inBlock tokens (first :: columns) false) (column + 1)
      (endLine (Written.inStyle (first + 2) text.toList style) ++ (spaces ++ rest)) :=
    @Lexes.of_spaces column [' '] _ _ (by simp) (h.begins _).settled
  have found := @Restorable.lexes _ _ h tokens columns first (column + 1) _ _
    (Nat.lt_succ_of_lt inside) onlySpaces outside settled
  rw [String.ofList_toList] at found
  rw [renderValue]
  exact space.trans found

theorem pairTokens_cons (pair : Node × Node) (pairs : List (Node × Node)) :
    pairTokens (pair :: pairs) = pairTokens [pair] ++ pairTokens pairs := by
  simp [pairTokens]

theorem IsKey.settled {node : Node} (h : IsKey node) (value rest : List Char) :
    Settled (renderKey node ++ value ++ rest) := by
  obtain ⟨word, isWord, rfl⟩ := h
  have begins := (@Lexer.IsWord.begins 0 (value ++ rest) _ isWord)
  obtain ⟨-, -, -, -, begins, -⟩ := begins
  simpa [renderKey, Written.inStyle] using begins.settled

section Mapping

variable {opened : List Token} {outer : List Nat}

theorem lexes_pair {key value : Node} (isKey : IsKey key) (lexed : Lexed value)
    (inside : (inBlock tokens columns true).indent ≤ column)
    (opens : openMapping tokens columns column = (opened, column :: outer))
    (onlySpaces : ∀ c ∈ spaces, c = ' ') (outside : spaces.length ≤ column)
    (settled : Settled rest) :
    Lexes (inBlock tokens columns true) column
      (renderKey key ++ renderValue column value ++ (spaces ++ rest))
      (inBlock ((pairTokens [(key, value)]).reverse ++ opened) (column :: outer) true)
      spaces.length rest := by
  obtain ⟨word, isWord, rfl⟩ := isKey
  have found := Lexer.lexes_key isWord inside
    (isGap_renderValue column value (spaces ++ rest))
  rw [opens, String.ofList_toList] at found
  have last := @lexed (.value :: .scalar word .plain :: .key :: opened) outer column
    (column + word.toList.length + 1) _ _ (by omega) onlySpaces outside settled
  have written : renderKey (.scalar word .plain) ++ renderValue column value ++ (spaces ++ rest) =
      word.toList ++ ':' :: (renderValue column value ++ (spaces ++ rest)) := by
    simp [renderKey, Written.inStyle]
  have same : (pairTokens [(scalar word .plain, value)]).reverse ++ opened =
      value.tokens.reverse ++ .value :: .scalar word .plain :: .key :: opened := by
    simp [pairTokens, Node.tokens]
  rw [written, same]
  exact found.trans last

/-- The pairs of a mapping from its first key on. -/
theorem lexes_pairs {pair : Node × Node} {pairs : List (Node × Node)}
    (keys : ∀ each ∈ pair :: pairs, IsKey each.1) (values : ∀ each ∈ pair :: pairs, Lexed each.2)
    (inside : (inBlock tokens columns true).indent ≤ column)
    (opens : openMapping tokens columns column = (opened, column :: outer))
    (onlySpaces : ∀ c ∈ spaces, c = ' ') (outside : spaces.length ≤ column)
    (settled : Settled rest) :
    Lexes (inBlock tokens columns true) column
      (renderAt column (.mapping (pair :: pairs)) ++ (spaces ++ rest))
      (inBlock ((pairTokens (pair :: pairs)).reverse ++ opened) (column :: outer) true)
      spaces.length rest := by
  -- on the pairs behind the first, each of which begins at the column of the open mapping
  induction pairs generalizing pair tokens columns opened with
  | nil =>
      rw [List.forall_mem_singleton] at keys values
      rw [renderAt, renderPairs, List.append_nil]
      exact lexes_pair keys values inside opens onlySpaces outside settled
  | cons next others ih =>
      rw [List.forall_mem_cons] at keys values
      have indentation : renderPairs column (next :: others) =
          List.replicate column ' ' ++ renderAt column (.mapping (next :: others)) := by
        simp only [renderPairs, renderAt, List.append_assoc]
      have nextSettled :
          Settled (renderAt column (.mapping (next :: others)) ++ (spaces ++ rest)) := by
        have settled := (keys.2 next List.mem_cons_self).settled (renderValue column next.2)
          (renderPairs column others ++ (spaces ++ rest))
        simpa [renderAt] using settled
      have found := @lexes_pair tokens columns column (List.replicate column ' ') _ opened outer
        pair.1 pair.2 keys.1 values.1 inside opens (fun c hc => List.eq_of_mem_replicate hc)
        (by simp) nextSettled
      have later := @ih ((pairTokens [pair]).reverse ++ opened) (column :: outer)
        ((pairTokens [pair]).reverse ++ opened) next keys.2 values.2 (Int.le_refl column)
        (Lexer.openMapping_cons column)
      rw [pairTokens_cons, List.reverse_append, List.append_assoc]
      rw [renderAt, indentation]
      simp only [List.append_assoc, List.length_replicate] at found later ⊢
      exact found.trans later

end Mapping

section Sequence

/-- An item of a sequence behind its hyphen. The mapping ends where the next line begins, which is
not indented as far. -/
theorem lexes_item {pairs : List (Node × Node)} (table : Keyed Lexed pairs)
    (onlySpaces : ∀ c ∈ spaces, c = ' ') (outside : spaces.length ≤ first)
    (settled : Settled rest) :
    Lexes (inBlock tokens (first :: columns) true) first
      ('-' :: ' ' :: (renderAt (first + 2) (.mapping pairs) ++ (spaces ++ rest)))
      (inBlock ((Node.tokens (.mapping pairs)).reverse ++ .blockEntry :: tokens) (first :: columns)
        true) spaces.length rest := by
  obtain ⟨nonempty, keys, values⟩ := table
  obtain ⟨pair, others, rfl⟩ := List.exists_cons_of_ne_nil nonempty
  have begins : Settled (renderAt (first + 2) (.mapping (pair :: others)) ++ (spaces ++ rest)) := by
    have settled := (keys pair List.mem_cons_self).settled (renderValue (first + 2) pair.2)
      (renderPairs (first + 2) others ++ (spaces ++ rest))
    simpa [renderAt] using settled
  have deeper : (inBlock (.blockEntry :: tokens) (first :: columns) true).indent <
      ((first + 2 : Nat) : Int) := by
    rw [Lexer.indent_inBlock_cons]
    omega
  have found := @lexes_pairs (.blockEntry :: tokens) (first :: columns) (first + 2) spaces rest _ _
    pair others keys values (Int.le_of_lt deeper) (Lexer.openMapping_of_lt deeper) onlySpaces
    (by omega) settled
  have ended := @Lexer.lexes_close spaces.length rest ((pairTokens (pair :: others)).reverse ++
      .blockMappingStart :: .blockEntry :: tokens) (first :: columns) true (first + 2) (by omega)
    settled
  have same : (Node.tokens (.mapping (pair :: others))).reverse ++ .blockEntry :: tokens =
      .blockEnd :: ((pairTokens (pair :: others)).reverse ++
        .blockMappingStart :: .blockEntry :: tokens) := by
    simp [Node.tokens]
  rw [same]
  exact (Lexer.lexes_entry begins).trans (found.trans ended)

/-- The items of a sequence from its first hyphen on. -/
theorem lexes_items {pairs : List (Node × Node)} {tables : List (List (Node × Node))}
    (all : ∀ table ∈ pairs :: tables, Keyed Lexed table)
    (onlySpaces : ∀ c ∈ spaces, c = ' ') (outside : spaces.length ≤ first)
    (settled : Settled rest) :
    Lexes (inBlock tokens (first :: columns) true) first
      ('-' :: ' ' :: (renderAt (first + 2) (.mapping pairs) ++
        (renderItems first (tables.map .mapping) ++ (spaces ++ rest))))
      (inBlock ((itemTokens ((pairs :: tables).map .mapping)).reverse ++ tokens) (first :: columns)
        true) spaces.length rest := by
  -- on the items behind the first: the hyphen of the next is to the left of the pairs of each
  induction tables generalizing pairs tokens with
  | nil =>
      rw [List.forall_mem_singleton] at all
      have found := @lexes_item tokens columns first spaces rest pairs all onlySpaces outside
        settled
      simpa [renderItems, itemTokens] using found
  | cons next others ih =>
      rw [List.forall_mem_cons] at all
      have indentation : renderItems first ((next :: others).map .mapping) ++ (spaces ++ rest) =
          List.replicate first ' ' ++ ('-' :: ' ' :: (renderAt (first + 2) (.mapping next) ++
            (renderItems first (others.map .mapping) ++ (spaces ++ rest)))) := by
        simp [renderItems]
      have hyphen (rest : List Char) : Settled ('-' :: rest) :=
        ⟨by rw [front_cons]; decide, by rw [front_cons]; decide, by simp⟩
      have found (rest : List Char) := @lexes_item tokens columns first (List.replicate first ' ')
        rest pairs all.1 (fun c hc => List.eq_of_mem_replicate hc) (by simp)
      have later := @ih ((Node.tokens (.mapping pairs)).reverse ++ .blockEntry :: tokens) next all.2
      have same : (itemTokens ((pairs :: next :: others).map .mapping)).reverse ++ tokens =
          (itemTokens ((next :: others).map .mapping)).reverse ++
            ((Node.tokens (.mapping pairs)).reverse ++ .blockEntry :: tokens) := by
        simp [itemTokens]
      simp only [List.length_replicate] at found
      rw [indentation, same]
      exact (found _ (hyphen _)).trans later

theorem lexed_sequence {tables : List (List (Node × Node))}
    (all : ∀ table ∈ tables, Keyed Lexed table) : Lexed (.sequence (tables.map .mapping)) := by
  intro tokens columns first column spaces rest inside onlySpaces outside settled
  cases tables with
  | nil =>
      have bracket : Settled ('[' :: ']' :: '\n' :: (spaces ++ rest)) :=
        ⟨by rw [front_cons]; decide, by rw [front_cons]; decide, by simp⟩
      have space := @Lexes.of_spaces column [' '] _ (inBlock tokens (first :: columns) false)
        (by simp) bracket
      exact space.trans (Lexer.lexes_emptySequence (Nat.lt_succ_of_lt inside) onlySpaces settled)
  | cons pairs tables =>
      have hyphen (rest : List Char) : Settled ('-' :: rest) :=
        ⟨by rw [front_cons]; decide, by rw [front_cons]; decide, by simp⟩
      have lineEnd (rest : List Char) := @Lexes.of_lineEnd column (List.replicate first ' ') rest
        (inBlock tokens (first :: columns) false) '\n' (by decide)
        (fun c hc => List.eq_of_mem_replicate hc)
      have found := @lexes_items tokens columns first spaces rest pairs tables all onlySpaces
        outside settled
      have written : renderValue first (.sequence ((pairs :: tables).map .mapping)) ++
          (spaces ++ rest) = '\n' :: (List.replicate first ' ' ++
            ('-' :: ' ' :: (renderAt (first + 2) (.mapping pairs) ++
              (renderItems first (tables.map .mapping) ++ (spaces ++ rest))))) := by
        simp [renderValue, renderItems]
      simp only [List.length_replicate] at lineEnd
      rw [written]
      exact (lineEnd _ (hyphen _) rfl).trans found

/-- A value that reading brings back is found as its tokens. -/
theorem Writable.lexed {node : Node} (h : Writable node) : Lexed node := by
  induction h with
  | scalar restorable => exact lexed_scalar restorable
  | sequence nonempty keys _ values =>
      exact lexed_sequence fun table member =>
        ⟨nonempty table member, keys table member, values table member⟩

end Sequence

end Node

end TypeDictionary.Yaml
