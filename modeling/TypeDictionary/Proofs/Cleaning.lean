import TypeDictionary.Proofs.Identifier
import TypeDictionary.Proofs.Segment

/-!
# What cleaning makes of a name

`Collapses` tells what becomes of the characters of a name, without going through them one by one:
the name falls into words of allowed characters and maximal runs of foreign ones, the words stay,
and each run becomes one underscore. Cleaning does this and then guards a leading digit. It is the
identity on legal names and on no others, so its results are exactly the legal names.
-/

namespace TypeDictionary

namespace Alphabet

variable {a : Alphabet} {raw text word run rest : List Char} {inRun : Bool}

/-- A text, and the same with one underscore in place of each maximal run of foreign characters. -/
inductive Collapses (a : Alphabet) : List Char → List Char → Prop
  | last {word : List Char} (allowed : ∀ c ∈ word, a.allows c = true) : Collapses a word word
  | more {word run rest text : List Char} (allowed : ∀ c ∈ word, a.allows c = true)
      (nonempty : run ≠ []) (foreign : ∀ c ∈ run, a.allows c = false)
      (maximal : ∀ c ∈ rest.head?, a.allows c = true) (others : Collapses a rest text) :
      Collapses a (word ++ (run ++ rest)) (word ++ '_' :: text)

theorem collapse_append_of_allows (allowed : ∀ c ∈ word, a.allows c = true) :
    a.collapse false (word ++ rest) = word ++ a.collapse false rest := by
  induction word with
  | nil => rfl
  | cons c word ih =>
      rw [List.cons_append, collapse, if_pos (allowed c List.mem_cons_self),
        ih fun d hd => allowed d (List.mem_cons_of_mem c hd), List.cons_append]

theorem collapse_true_append_of_foreign (foreign : ∀ c ∈ run, a.allows c = false) :
    a.collapse true (run ++ rest) = a.collapse true rest := by
  induction run with
  | nil => rfl
  | cons c run ih =>
      rw [List.cons_append, collapse, foreign c List.mem_cons_self, if_neg Bool.false_ne_true,
        if_pos rfl, ih fun d hd => foreign d (List.mem_cons_of_mem c hd)]

/-- Behind a run it makes no difference that there was one. -/
theorem collapse_of_head (maximal : ∀ c ∈ rest.head?, a.allows c = true) :
    a.collapse inRun rest = a.collapse false rest := by
  cases rest with
  | nil => rfl
  | cons c rest => rw [collapse, if_pos (maximal c rfl), collapse, if_pos (maximal c rfl)]

theorem collapse_run (nonempty : run ≠ []) (foreign : ∀ c ∈ run, a.allows c = false)
    (maximal : ∀ c ∈ rest.head?, a.allows c = true) :
    a.collapse false (run ++ rest) = '_' :: a.collapse false rest := by
  cases run with
  | nil => exact absurd rfl nonempty
  | cons c run =>
      obtain ⟨first, others⟩ := List.forall_mem_cons.mp foreign
      rw [List.cons_append, collapse, first, if_neg Bool.false_ne_true, if_neg Bool.false_ne_true,
        collapse_true_append_of_foreign others, collapse_of_head maximal]

theorem Collapses.collapse_eq (h : a.Collapses raw text) : a.collapse false raw = text := by
  induction h with
  | last allowed => exact a.collapse_of_allows allowed
  | more allowed nonempty foreign maximal _ ih =>
      rw [collapse_append_of_allows allowed, collapse_run nonempty foreign maximal, ih]

theorem collapses_collapse (a : Alphabet) (raw : List Char) :
    a.Collapses raw (a.collapse false raw) := by
  -- A foreign character is one that is not allowed: words are its runs, and runs are its gaps.
  induction segmented (fun c => !a.allows c) raw with
  | last inside =>
      simp only [Bool.not_eq_false'] at inside
      rw [a.collapse_of_allows inside]
      exact .last inside
  | more inside nonempty between maximal _ ih =>
      simp only [Bool.not_eq_false', Bool.not_eq_true'] at inside between maximal
      rw [collapse_append_of_allows inside, collapse_run nonempty between maximal]
      exact .more inside nonempty between maximal ih

theorem collapse_eq_iff : a.collapse false raw = text ↔ a.Collapses raw text := by
  constructor
  · rintro rfl
    exact a.collapses_collapse raw
  · exact Collapses.collapse_eq

theorem guardDigit_eq (text : List Char) :
    a.guardDigit text = if text.head?.any a.digit then '_' :: text else text := by
  cases text with
  | nil => rfl
  | cons c rest => rfl

/-- Cleaning changes every name that is not legal. -/
theorem clean_eq_self_iff (underscore : a.digit '_' = false) :
    a.clean raw = raw ↔ a.IsLegal raw := by
  constructor
  · intro same
    rw [← same]
    exact a.isLegal_clean underscore raw
  · exact a.clean_of_isLegal

/-- A cleaned name is the name with an underscore in place of each maximal run of foreign
characters, and with one more in front if it would begin with a digit. It is legal, empty only if
the name is, the same as the name exactly if that is legal, and is left alone by cleaning again. -/
theorem clean_characterization (underscore : a.digit '_' = false) (raw : List Char) :
    (∀ identifier, a.clean raw = identifier ↔
      ∃ text, a.Collapses raw text ∧
        identifier = if text.head?.any a.digit then '_' :: text else text) ∧
    a.IsLegal (a.clean raw) ∧
    (a.clean raw = [] ↔ raw = []) ∧
    (a.clean raw = raw ↔ a.IsLegal raw) ∧
    a.clean (a.clean raw) = a.clean raw := by
  have legal := a.isLegal_clean underscore raw
  refine ⟨?_, legal, a.clean_eq_nil_iff, clean_eq_self_iff underscore, a.clean_of_isLegal legal⟩
  intro identifier
  simp only [clean, guardDigit_eq, ← collapse_eq_iff, exists_eq_left']
  exact eq_comm

/-- A digit in front is guarded; the runs behind it, one of them with a colon, leave an underscore
each. -/
theorem clean_characterization_sample :
    unicode.digit '_' = false ∧ (Identifier.clean "3-D :x").toList = "_3_D_x".toList ∧
      unicode.Collapses "3-D :x".toList "3_D_x".toList ∧
      ¬unicode.IsLegal "3-D :x".toList ∧ unicode.IsLegal "_3_D_x".toList := by
  have cleaned : unicode.clean "3-D :x".toList = "_3_D_x".toList := by decide +kernel
  have collapsed : unicode.collapse false "3-D :x".toList = "3_D_x".toList := by decide +kernel
  obtain ⟨replaced, legal, _, same, _⟩ :=
    clean_characterization unicode_digit_underscore "3-D :x".toList
  rw [cleaned] at legal same
  obtain ⟨text, collapses, _⟩ := (replaced _).mp cleaned
  obtain rfl := (collapse_eq_iff.mpr collapses).symm.trans collapsed
  exact ⟨unicode_digit_underscore, (Identifier.toList_clean _).trans cleaned, collapses,
    mt same.mpr (by decide), legal⟩

end Alphabet

end TypeDictionary
