import TypeDictionary.Proofs.BlockTokens
import TypeDictionary.Proofs.Datum

/-!
# Styles that bring texts back

The style that is chosen for a text brings it back: what each style asks of a text is what its
reader needs to take it for what it is. Integers are written plain.
-/

namespace TypeDictionary.Yaml

open ScalarText (IsPlain IsSingle)
open Written (endsLine hasPair)

/-- What reading a scalar in a style brings back. -/
inductive Restorable : List Char → Style → Prop
  | plain {text : List Char} (isPlain : IsPlain text)
      (begins : Written.beginsAsIndicator text = false)
      (printable : ∀ c ∈ text, Written.isPrintable c = true) : Restorable text .plain
  | literal {text : List Char} (nonempty : text ≠ [])
      (printable : ∀ c ∈ text, Written.isPrintable c = true) : Restorable text .literal
  | quoted (text : List Char) : Restorable text .quoted

namespace Written

variable {text : List Char}

theorem isChain_of_hasPair {p : Char → Char → Bool} (h : hasPair p text = false) :
    text.IsChain fun a b => p a b = false := by
  induction text with
  | nil => exact .nil
  | cons a text ih =>
      cases text with
      | nil => exact .singleton a
      | cons b text =>
          rw [hasPair, Bool.or_eq_false_iff] at h
          exact .cons_cons h.1 (ih h.2)

theorem isPlain_of_allowsPlain (nonempty : text ≠ []) (h : allowsPlain text = true) :
    IsPlain text ∧ beginsAsIndicator text = false ∧ ∀ c ∈ text, isPrintable c = true := by
  simp only [allowsPlain, holdsIndicator, Bool.and_eq_true, Bool.not_eq_true', Bool.or_eq_false_iff,
    decide_eq_true_eq, decide_eq_false_iff_not, List.all_eq_true, List.any_eq_false,
    Bool.not_eq_true] at h
  obtain ⟨⟨⟨⟨⟨⟨notFirst, notLast⟩, -⟩, notIndicator⟩, notColon, noPair⟩, printable⟩, oneLine⟩ := h
  refine ⟨⟨nonempty, fun c hc => ?_, ⟨notFirst, fun hash => ?_⟩, ⟨notLast, notColon⟩,
    isChain_of_hasPair noPair⟩, notIndicator, printable⟩
  · exact or_iff_not_imp_left.mpr fun notSpace =>
      ScalarText.isGap_of_isPrintable (printable c hc) notSpace (oneLine c hc)
  · obtain ⟨rest, rfl⟩ := List.head?_eq_some_iff.mp hash
    exact absurd notIndicator (by simp [beginsAsIndicator])

theorem isSingle_of_allowsSingle (oneLine : text.contains '\n' = false)
    (h : allowsSingle text = true) : IsSingle text := by
  simp only [allowsSingle, Bool.and_eq_true, Bool.not_eq_true', List.all_eq_true] at h
  obtain ⟨⟨trailing, leading⟩, printable⟩ := h
  refine ⟨fun c hc => ⟨printable c hc, ?_⟩, List.isChain_iff_getElem.mpr fun i hi => ⟨?_, ?_⟩⟩
  · rintro rfl
    exact absurd oneLine (by simp [hc])
  · have apart := (isChain_of_hasPair trailing).getElem i hi
    simpa using apart
  · have apart := (isChain_of_hasPair leading).getElem i hi
    simpa using apart

end Written

/-- The style of a text brings it back. -/
theorem Restorable.styleOf (text : String) : Restorable text.toList (Written.styleOf text) := by
  unfold Written.styleOf
  split
  · rename_i allowed
    have nonempty : text.toList ≠ [] := by
      intro empty
      obtain rfl : text = "" := String.toList_eq_nil_iff.mp empty
      exact absurd allowed.1 (by decide)
    obtain ⟨isPlain, begins, printable⟩ := Written.isPlain_of_allowsPlain nonempty allowed.2.2
    exact .plain isPlain begins printable
  · split
    · rename_i allowed
      simp only [Bool.and_eq_true, Written.allowsBlock, List.all_eq_true] at allowed
      exact .literal (fun empty => absurd allowed.1 (by simp [empty])) allowed.2.2
    · exact .quoted _

/-- What decimal notation is made of. -/
def isNotation (c : Char) : Bool := c.isDigit || c = '-'

theorem isPlain_of_isNotation {text : List Char} (nonempty : text ≠ [])
    (h : ∀ c ∈ text, isNotation c = true) : IsPlain text := by
  have solid : ∀ c ∈ text, isGap c = false := fun c hc => isGap_eq_false (by decide) (h c hc)
  have other {c : Char} (d : Char) (no : isNotation d = false) (hc : c ∈ text) : c ≠ d := by
    rintro rfl
    exact absurd (h c hc) (by simp [no])
  refine ⟨nonempty, fun c hc => .inr (solid c hc), ⟨fun first => ?_, fun first => ?_⟩,
    ⟨fun last => ?_, fun last => ?_⟩, List.isChain_iff_getElem.mpr fun i hi => ?_⟩
  · exact other ' ' (by decide) (List.mem_of_head? first) rfl
  · exact other '#' (by decide) (List.mem_of_head? first) rfl
  · exact other ' ' (by decide) (List.mem_of_getLast? last) rfl
  · exact other ':' (by decide) (List.mem_of_getLast? last) rfl
  · have member : text[i] ∈ text := List.getElem_mem _
    simp [ScalarText.endsPlain, other ':' (by decide) member, solid _ member]

theorem isPrintable_of_isNotation {c : Char} (h : isNotation c = true) :
    Written.isPrintable c = true := by
  simp only [isNotation, Bool.or_eq_true, decide_eq_true_eq] at h
  rcases h with digit | rfl
  · have bounds : 48 ≤ c.toNat ∧ c.toNat ≤ 57 := by
      simp only [Char.isDigit, Bool.and_eq_true, decide_eq_true_eq] at digit
      exact digit
    simp only [Written.isPrintable, decide_eq_true_eq]
    omega
  · decide

/-- An integer may be written plain. -/
theorem Restorable.ofInt (n : Int) : Restorable (toString n).toList .plain := by
  have natural := Kind.isNatural_toDigits n.natAbs
  obtain ⟨first, rest, same⟩ := List.exists_cons_of_ne_nil natural.nonempty
  have digit : first.isDigit = true := natural.digits first (by simp [same])
  have made : ∀ c ∈ (toString n).toList, isNotation c = true := by
    intro c hc
    rw [Kind.toList_toString] at hc
    split at hc
    · rcases List.mem_cons.mp hc with rfl | hc
      · rfl
      · simp [isNotation, natural.digits c hc]
    · simp [isNotation, natural.digits c hc]
  refine .plain (isPlain_of_isNotation ?_ made) ?_ fun c hc => ?_
  · rw [Kind.toList_toString]
    split
    · exact List.cons_ne_nil _ _
    · exact natural.nonempty
  · rw [Kind.toList_toString, same]
    have solid : isGap first = false := isGap_eq_false (by decide) digit
    split
    · simp [Written.beginsAsIndicator, solid]
    · have other (d : Char) (no : d.isDigit = false) : first ≠ d := by
        rintro rfl
        exact absurd digit (by simp [no])
      simp [Written.beginsAsIndicator, other]
  · exact isPrintable_of_isNotation (made c hc)

namespace Node

variable {text : List Char}

theorem endLine_of_getLast? {c : Char} (last : text.getLast? = some c)
    (solid : endsLine c = false) : endLine text = text ++ ['\n'] := by
  simp [endLine, last, solid]

theorem endLine_singleQuoted (column : Nat) :
    endLine (Written.singleQuoted column text) = Written.singleQuoted column text ++ ['\n'] := by
  refine @endLine_of_getLast? _ '\'' ?_ (by decide)
  rw [Written.singleQuoted, List.getLast?_cons, ScalarText.getLast?_indentLines,
    List.getLast?_concat, Option.getD_some]

theorem endLine_doubleQuoted :
    endLine (Written.doubleQuoted text) = Written.doubleQuoted text ++ ['\n'] :=
  endLine_of_getLast? (by rw [Written.doubleQuoted, List.getLast?_concat]) (by decide)

end Node

theorem not_endsLine_of_isGap {c : Char} (h : isGap c = false) : endsLine c = false := by
  cases ends : endsLine c with
  | false => rfl
  | true => exact absurd (isBreak_of_isGap h) (by simp [isBreak_of_endsLine ends])

theorem Restorable.begins {text rest : List Char} {style : Style} (h : Restorable text style)
    (column : Nat) :
    Lexer.Begins (Node.endLine (Written.inStyle column text style) ++ rest) := by
  obtain ⟨added, longer⟩ := ScalarText.endLine_eq_append (Written.inStyle column text style)
  have marked {c : Char} (mark : c = '|' ∨ c = '\'' ∨ c = '"') (rest : List Char) :
      Lexer.Begins (c :: rest) := by
    rcases mark with rfl | rfl | rfl <;> exact ⟨by rw [front_cons]; decide, by simp⟩
  rw [longer, List.append_assoc]
  cases h with
  | plain isPlain begins printable =>
      obtain ⟨c, others, rfl⟩ := List.exists_cons_of_ne_nil isPlain.nonempty
      refine ⟨(isPlain.solid c List.mem_cons_self).resolve_left
        fun space => isPlain.begins.1 (congrArg some space), fun hash =>
          isPlain.begins.2 (congrArg some hash), ?_⟩
      rintro rfl
      exact absurd (printable _ List.mem_cons_self) (by decide)
  | literal => exact marked (.inl rfl) _
  | quoted =>
      rw [Written.inStyle]
      split
      · exact marked (.inr (.inl rfl)) _
      · exact marked (.inr (.inr rfl)) _

/-- A scalar behind its key is found as a token of its own. -/
theorem Restorable.lexes {text : List Char} {style : Style} (h : Restorable text style)
    {tokens : List Token} {columns : List Nat} {first column : Nat} {spaces rest : List Char}
    (inside : first < column) (onlySpaces : ∀ c ∈ spaces, c = ' ') (outside : spaces.length ≤ first)
    (settled : Settled rest) :
    Lexer.Lexes (.inBlock tokens (first :: columns) false) column
      (Node.endLine (Written.inStyle (first + 2) text style) ++ (spaces ++ rest))
      (.inBlock (.scalar (String.ofList text) style :: tokens) (first :: columns) true)
      spaces.length rest := by
  have notQuote : front ('\n' :: (spaces ++ rest)) ≠ '\'' ∧
      front ('\n' :: (spaces ++ rest)) ≠ '"' := by simp
  cases h with
  | plain isPlain begins printable =>
      obtain ⟨last, same⟩ : ∃ last, text.getLast? = some last :=
        ⟨_, List.getLast?_eq_some_getLast isPlain.nonempty⟩
      have solid : isGap last = false :=
        (isPlain.solid last (List.mem_of_getLast? same)).resolve_left
          fun space => isPlain.ends.1 (space ▸ same)
      have notOrder : front text ≠ '\ufeff' := by
        obtain ⟨c, others, rfl⟩ := List.exists_cons_of_ne_nil isPlain.nonempty
        rintro rfl
        exact absurd (printable _ List.mem_cons_self) (by decide)
      rw [Written.inStyle, Node.endLine_of_getLast? same (not_endsLine_of_isGap solid),
        List.append_assoc]
      exact Lexer.lexes_plain isPlain begins notOrder inside onlySpaces outside settled
  | literal nonempty printable =>
      exact Lexer.lexes_literal nonempty printable inside onlySpaces outside settled
  | quoted =>
      rw [Written.inStyle]
      split
      · rename_i allowed
        simp only [Bool.and_eq_true, Bool.not_eq_true'] at allowed
        obtain ⟨column', read⟩ := @ScalarText.reads_singleQuoted column text _ (first + 2)
          (Written.isSingle_of_allowsSingle allowed.1 allowed.2) (Nat.succ_ne_zero _) notQuote.1
        rw [Node.endLine_singleQuoted, List.append_assoc]
        exact Lexer.lexes_quoted ⟨_, rfl⟩ (.inl rfl) read inside onlySpaces settled
      · rw [Node.endLine_doubleQuoted, List.append_assoc]
        exact Lexer.lexes_quoted ⟨_, rfl⟩ (.inr rfl)
          (ScalarText.reads_doubleQuoted notQuote.2) inside onlySpaces settled

end TypeDictionary.Yaml
