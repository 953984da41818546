import TypeDictionary.Proofs.WrittenNode

/-!
# Characters of written nodes

All that is written for a value consists of characters that may stand in a text as they are.
-/

namespace TypeDictionary.Yaml

open Written (isPrintable endsLine hexDigits indentLines)

theorem isReadable_of_isPrintable {c : Char} (h : isPrintable c = true) : isReadable c = true := by
  simp only [isPrintable, isReadable, decide_eq_true_eq] at h ⊢
  omega

/-- A text of characters that may stand in one as they are. -/
def Printable (text : List Char) : Prop := ∀ c ∈ text, isPrintable c = true

namespace Printable

variable {c : Char} {text rest : List Char} {column : Nat}

@[simp] theorem nil : Printable [] := fun _ h => absurd h List.not_mem_nil

@[simp] theorem cons_iff : Printable (c :: text) ↔ isPrintable c = true ∧ Printable text :=
  List.forall_mem_cons

@[simp] theorem append_iff : Printable (text ++ rest) ↔ Printable text ∧ Printable rest :=
  List.forall_mem_append

@[simp] theorem spaces (count : Nat) : Printable (List.replicate count ' ') := by
  intro c h
  rw [List.eq_of_mem_replicate h]
  decide

theorem flatMap {write : Char → List Char} (h : ∀ c ∈ text, Printable (write c)) :
    Printable (text.flatMap write) := by
  intro c member
  obtain ⟨d, hd, member⟩ := List.mem_flatMap.mp member
  exact h d hd c member

theorem indentLines (h : Printable text) (after : Bool) :
    Printable (indentLines column after text) := by
  induction text generalizing after with
  | nil => exact nil
  | cons c text ih =>
      rw [cons_iff] at h
      rw [Written.indentLines]
      split
      · exact cons_iff.mpr ⟨h.1, ih h.2 true⟩
      · cases after <;> simp [h.1, ih h.2]

theorem hexDigits (count n : Nat) : Printable (hexDigits count n) := by
  have digit : ∀ d < 16, isPrintable (Nat.digitChar d).toUpper = true := by decide
  intro c member
  obtain ⟨place, _, rfl⟩ := List.mem_map.mp member
  exact digit _ (Nat.mod_lt _ (by decide))

theorem escape (c : Char) : Printable (Written.escape c) := by
  have mark : isPrintable '\\' = true ∧ isPrintable 'x' = true ∧ isPrintable 'u' = true ∧
      isPrintable 'U' = true := by decide
  unfold Written.escape
  split
  iterate 14
    rw [cons_iff, cons_iff]
    exact ⟨by decide, by decide, nil⟩
  split
  · rename_i printable
    exact cons_iff.mpr ⟨printable, nil⟩
  split
  · simp [mark, hexDigits]
  split <;> simp [mark, hexDigits]

theorem literalBlock (h : Printable text) : Printable (Written.literalBlock column text) := by
  have marks : isPrintable '|' = true ∧ isPrintable '2' = true ∧ isPrintable '-' = true ∧
      isPrintable '+' = true ∧ isPrintable '\n' = true := by decide
  have header : Printable (Written.blockHeader text) := by
    unfold Written.blockHeader
    split <;> repeat' split
    all_goals simp [marks]
  simp [Written.literalBlock, header, marks, h.indentLines]

theorem singleQuoted (h : Printable text) : Printable (Written.singleQuoted column text) := by
  have quote : isPrintable '\'' = true := by decide
  have doubled : Printable (text.flatMap fun c => if c = '\'' then ['\'', '\''] else [c]) := by
    refine flatMap fun c member => ?_
    split <;> simp [quote, h c member]
  have inside : Printable ((text.flatMap fun c => if c = '\'' then ['\'', '\''] else [c]) ++
      ['\'']) := by simp [doubled, quote]
  exact cons_iff.mpr ⟨quote, inside.indentLines false⟩

theorem doubleQuoted (text : List Char) : Printable (Written.doubleQuoted text) := by
  have quote : isPrintable '"' = true := by decide
  have escaped : Printable (text.flatMap Written.escape) := flatMap fun c _ => escape c
  simp [Written.doubleQuoted, quote, escaped]

end Printable

theorem Restorable.printable {text : List Char} {style : Style} (h : Restorable text style)
    (column : Nat) : Printable (Node.endLine (Written.inStyle column text style)) := by
  refine ScalarText.endLine_printable ?_
  cases h with
  | plain _ _ printable => exact printable
  | literal _ printable => exact Printable.literalBlock printable
  | quoted =>
      rw [Written.inStyle]
      split
      · rename_i allowed
        simp only [Bool.and_eq_true, Written.allowsSingle, List.all_eq_true] at allowed
        exact Printable.singleQuoted allowed.2.2
      · exact Printable.doubleQuoted text

theorem isPrintable_of_letter {c : Char} (h : Lexer.isLetter c = true) : isPrintable c = true := by
  simp only [Lexer.isLetter, Bool.or_eq_true, decide_eq_true_eq] at h
  rcases h with letter | rfl
  · have bounds : (65 ≤ c.toNat ∧ c.toNat ≤ 90) ∨ (97 ≤ c.toNat ∧ c.toNat ≤ 122) := by
      have either : (c.isUpper || c.isLower) = true := letter
      rcases Bool.or_eq_true_iff.mp either with upper | lower
      · exact .inl (of_decide_eq_true upper)
      · have range : (decide (97 ≤ c.val) && decide (c.val ≤ 122)) = true := lower
        simp only [Bool.and_eq_true, decide_eq_true_eq] at range
        exact .inr range
    simp only [isPrintable, decide_eq_true_eq]
    omega
  · decide

namespace Node

theorem IsKey.printable {key : Node} (h : IsKey key) : Printable (renderKey key) := by
  obtain ⟨word, isWord, rfl⟩ := h
  have colon : isPrintable ':' = true := by decide
  have letters : Printable word.toList := fun c hc =>
    isPrintable_of_letter (isWord.letters c hc)
  simp [renderKey, Written.inStyle, letters, colon]

theorem printable_renderPairs {pairs : List (Node × Node)}
    (keys : ∀ pair ∈ pairs, IsKey pair.1)
    (values : ∀ pair ∈ pairs, ∀ column, Printable (renderValue column pair.2)) (column : Nat) :
    Printable (renderPairs column pairs) := by
  induction pairs with
  | nil => exact Printable.nil
  | cons pair pairs ih =>
      rw [List.forall_mem_cons] at keys values
      simp [renderPairs, keys.1.printable, values.1, ih keys.2 values.2]

/-- A mapping with values that may be written may be written. -/
theorem Keyed.printable {pairs : List (Node × Node)}
    (table : Keyed (fun value => ∀ column, Printable (renderValue column value)) pairs)
    (column : Nat) : Printable (renderAt column (.mapping pairs)) := by
  obtain ⟨nonempty, keys, values⟩ := table
  obtain ⟨pair, others, rfl⟩ := List.exists_cons_of_ne_nil nonempty
  rw [List.forall_mem_cons] at keys values
  simp [renderAt, keys.1.printable, values.1, printable_renderPairs keys.2 values.2]

theorem printable_renderItems {column : Nat} {items : List Node}
    (h : ∀ item ∈ items, Printable (renderAt (column + 2) item)) :
    Printable (renderItems column items) := by
  have hyphen : isPrintable '-' = true ∧ isPrintable ' ' = true := by decide
  induction items with
  | nil => exact Printable.nil
  | cons item items ih =>
      rw [List.forall_mem_cons] at h
      simp [renderItems, hyphen, h.1, ih h.2]

/-- All that is written for a value may stand in a text. -/
theorem Writable.printable {node : Node} (h : Writable node) (column : Nat) :
    Printable (renderValue column node) := by
  have marks : isPrintable ' ' = true ∧ isPrintable '[' = true ∧ isPrintable ']' = true ∧
      isPrintable '\n' = true := by decide
  induction h generalizing column with
  | scalar restorable => simp [renderValue, marks, restorable.printable]
  | @sequence tables nonempty keys _ values =>
      have items : Printable (renderItems column (tables.map .mapping)) :=
        printable_renderItems (List.forall_mem_map.mpr fun pairs member =>
          Keyed.printable ⟨nonempty pairs member, keys pairs member, values pairs member⟩ _)
      cases tables with
      | nil => simp [renderValue, marks]
      | cons pairs tables => simpa [renderValue, marks] using items

end Node

end TypeDictionary.Yaml
