import TypeDictionary.Identifier

/-!
# What cleaning guarantees

Cleaning a name leaves allowed characters only, and never a digit in front. The laws hold of every
alphabet in which the underscore is no digit; Unicode is one.

Of the empty name, and of no other, nothing is left, so an identifier is proper only if it is not
empty as well.

A legal name is left alone, so cleaning twice is cleaning once. Where a name is not legal an
underscore stands for what was there, and so the name begins with a given word after cleaning
exactly if it did before.
-/

namespace TypeDictionary

namespace Alphabet

variable (a : Alphabet)

theorem allows_underscore : a.allows '_' = true := by
  simp [allows]

theorem allows_of_mem_collapse {inRun : Bool} {raw : List Char} {c : Char}
    (h : c ∈ a.collapse inRun raw) : a.allows c = true := by
  induction raw generalizing inRun with
  | nil => simp [collapse] at h
  | cons d rest ih =>
      unfold collapse at h
      split at h
      · rename_i allowed
        rcases List.mem_cons.mp h with rfl | h
        · exact allowed
        · exact ih h
      · split at h
        · exact ih h
        · rcases List.mem_cons.mp h with rfl | h
          · exact a.allows_underscore
          · exact ih h

theorem isLegal_guardDigit (underscore : a.digit '_' = false) {text : List Char}
    (h : ∀ c ∈ text, a.allows c = true) : a.IsLegal (a.guardDigit text) := by
  cases text with
  | nil => simp [guardDigit, IsLegal]
  | cons c rest =>
      by_cases hdigit : a.digit c = true
      · refine ⟨?_, ?_⟩
        · intro d hd
          simp only [guardDigit, hdigit, if_true] at hd
          rcases List.mem_cons.mp hd with rfl | hd
          · exact a.allows_underscore
          · exact h d hd
        · simpa [guardDigit, hdigit] using underscore
      · refine ⟨?_, ?_⟩
        · intro d hd
          simp only [guardDigit, if_neg hdigit] at hd
          exact h d hd
        · simp [guardDigit, hdigit]

/-- A cleaned name is legal. -/
theorem isLegal_clean (underscore : a.digit '_' = false) (raw : List Char) :
    a.IsLegal (a.clean raw) :=
  a.isLegal_guardDigit underscore fun _ h => a.allows_of_mem_collapse h

theorem collapse_eq_nil_iff {raw : List Char} : a.collapse false raw = [] ↔ raw = [] := by
  cases raw with
  | nil => simp [collapse]
  | cons c rest =>
      unfold collapse
      split <;> simp

theorem guardDigit_eq_nil_iff {text : List Char} : a.guardDigit text = [] ↔ text = [] := by
  cases text with
  | nil => simp [guardDigit]
  | cons c rest =>
      rw [guardDigit]
      split <;> simp

/-- Cleaning puts at least one character in place of any. -/
theorem clean_eq_nil_iff {raw : List Char} : a.clean raw = [] ↔ raw = [] := by
  rw [clean, guardDigit_eq_nil_iff, collapse_eq_nil_iff]

theorem collapse_of_allows {inRun : Bool} {text : List Char}
    (h : ∀ c ∈ text, a.allows c = true) : a.collapse inRun text = text := by
  induction text generalizing inRun with
  | nil => rfl
  | cons c rest ih =>
      rw [collapse, if_pos (h c List.mem_cons_self),
        ih fun d hd => h d (List.mem_cons_of_mem c hd)]

theorem guardDigit_of_head {text : List Char} (h : ∀ c ∈ text.head?, a.digit c = false) :
    a.guardDigit text = text := by
  cases text with
  | nil => rfl
  | cons c rest =>
      have notDigit : a.digit c = false := h c rfl
      rw [guardDigit, notDigit, if_neg Bool.false_ne_true]

/-- Cleaning leaves a legal text alone. -/
theorem clean_of_isLegal {text : List Char} (h : a.IsLegal text) : a.clean text = text := by
  rw [clean, a.collapse_of_allows h.1, a.guardDigit_of_head h.2]

theorem prefix_collapse_iff {word raw : List Char} (allowed : ∀ c ∈ word, a.allows c = true)
    (plain : '_' ∉ word) : word <+: a.collapse false raw ↔ word <+: raw := by
  induction word generalizing raw with
  | nil => simp
  | cons c word ih =>
      have hc : a.allows c = true := allowed c List.mem_cons_self
      have notUnderscore : c ≠ '_' := fun h => plain (h ▸ List.mem_cons_self)
      cases raw with
      | nil => simp [collapse]
      | cons d rest =>
          by_cases hd : a.allows d = true
          · rw [collapse, if_pos hd, List.cons_prefix_cons, List.cons_prefix_cons,
              ih (fun e he => allowed e (List.mem_cons_of_mem c he))
                fun h => plain (List.mem_cons_of_mem c h)]
          · -- A foreign character is no part of the word, nor is the underscore in its place.
            have different : c ≠ d := fun h => hd (h ▸ hc)
            simp [collapse, hd, notUnderscore, different]

theorem prefix_guardDigit_iff {word text : List Char} (h : ∀ c ∈ word.head?, a.digit c = false)
    (plain : '_' ∉ word) : word <+: a.guardDigit text ↔ word <+: text := by
  cases word with
  | nil => simp
  | cons c word =>
      have hc : a.digit c = false := h c rfl
      have notUnderscore : c ≠ '_' := fun h => plain (h ▸ List.mem_cons_self)
      cases text with
      | nil => simp [guardDigit]
      | cons d rest =>
          by_cases hd : a.digit d = true
          · have different : c ≠ d := by
              rintro rfl
              rw [hc] at hd
              cases hd
            simp [guardDigit, hd, notUnderscore, different]
          · rw [guardDigit, if_neg hd]

/-- Cleaning neither makes nor destroys the beginning of a name, where that is a legal word without
underscores: every change leaves one behind. -/
theorem prefix_clean_iff {word raw : List Char} (legal : a.IsLegal word) (plain : '_' ∉ word) :
    word <+: a.clean raw ↔ word <+: raw := by
  rw [clean, a.prefix_guardDigit_iff legal.2 plain, a.prefix_collapse_iff legal.1 plain]

theorem unicode_digit_underscore : unicode.digit '_' = false := by decide +kernel

theorem unicode_allows_colon : unicode.allows ':' = false := by decide +kernel

end Alphabet

namespace Identifier

/-- A name that is a legal identifier and not empty. -/
structure IsProper (name : String) : Prop where
  nonempty : name ≠ ""
  legal : Alphabet.unicode.IsLegal name.toList

instance (name : String) : Decidable (IsProper name) :=
  decidable_of_iff (name ≠ "" ∧ Alphabet.unicode.IsLegal name.toList)
    ⟨fun h => ⟨h.1, h.2⟩, fun h => ⟨h.nonempty, h.legal⟩⟩

theorem toList_clean (raw : String) :
    (clean raw).toList = Alphabet.unicode.clean raw.toList := String.toList_ofList

theorem isLegal_clean (raw : String) : Alphabet.unicode.IsLegal (clean raw).toList := by
  rw [toList_clean]
  exact Alphabet.isLegal_clean _ Alphabet.unicode_digit_underscore raw.toList

/-- Cleaning makes a proper identifier of every name that it leaves something of. -/
theorem isProper_clean {raw : String} (h : clean raw ≠ "") : IsProper (clean raw) :=
  ⟨h, isLegal_clean raw⟩

/-- Cleaning a second time changes nothing. -/
@[simp] theorem clean_clean (raw : String) : clean (clean raw) = clean raw := by
  rw [clean, Alphabet.clean_of_isLegal _ (isLegal_clean raw), String.ofList_toList]

theorem clean_eq_empty_iff {raw : String} : clean raw = "" ↔ raw = "" := by
  rw [← String.toList_eq_nil_iff, clean, String.toList_ofList, Alphabet.clean_eq_nil_iff,
    String.toList_eq_nil_iff]

end Identifier

end TypeDictionary
