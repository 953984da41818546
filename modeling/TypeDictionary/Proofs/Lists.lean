import Mathlib.Data.List.Forall2
import Mathlib.Data.List.TakeWhile

/-!
# Lists in general

What is needed of lists whatever their items are: places in two lists put together, keys among the
items, items that match values one by one, and how a list begins.
-/

namespace TypeDictionary

namespace Lists

variable {α β κ : Type}

/-! ## Places -/

/-- A place in two lists put together is a place in one of them. -/
theorem append_eq_append_cons_iff {first second before after : List α} {item : α} :
    first ++ second = before ++ item :: after ↔
      (∃ rest, first = before ++ item :: rest ∧ after = rest ++ second) ∨
        ∃ rest, before = first ++ rest ∧ second = rest ++ item :: after := by
  rw [List.append_eq_append_iff]
  constructor
  · rintro (⟨rest, rfl, rfl⟩ | ⟨rest, rfl, split⟩)
    · exact .inr ⟨rest, rfl, rfl⟩
    · cases rest with
      | nil => exact .inr ⟨[], by simp, split.symm⟩
      | cons head rest =>
          cases split
          exact .inl ⟨rest, rfl, rfl⟩
  · rintro (⟨rest, rfl, rfl⟩ | ⟨rest, rfl, rfl⟩)
    · exact .inr ⟨item :: rest, rfl, rfl⟩
    · exact .inl ⟨rest, rfl, rfl⟩

theorem getElem?_concat_eq_some_iff {items : List α} {last item : α} {place : Nat} :
    (items ++ [last])[place]? = some item ↔
      items[place]? = some item ∨ place = items.length ∧ last = item := by
  rcases Nat.lt_trichotomy place items.length with hlt | rfl | hgt
  · simp [List.getElem?_append_left hlt, Nat.ne_of_lt hlt]
  · simp
  · have before : items[place]? = none := List.getElem?_eq_none (Nat.le_of_lt hgt)
    have after : (items ++ [last])[place]? = none := by
      apply List.getElem?_eq_none
      rw [List.length_append, List.length_singleton]
      omega
    simp [before, after, Nat.ne_of_gt hgt]

/-! ## Keys -/

theorem any_key_iff [DecidableEq κ] {key : α → κ} {items : List α} {wanted : κ} :
    (items.any fun item => key item = wanted) = true ↔ wanted ∈ items.map key := by
  simp only [List.any_eq_true, decide_eq_true_eq, List.mem_map]

/-- First occurrences in a list that grows at its end. -/
theorem eraseDups_concat [DecidableEq α] (items : List α) (item : α) :
    (items ++ [item]).eraseDups =
      if item ∈ items then items.eraseDups else items.eraseDups ++ [item] := by
  rw [List.eraseDups_append, List.removeAll, List.filter_singleton]
  by_cases repeated : item ∈ items
  · rw [if_pos repeated, List.elem_eq_true_of_mem repeated]
    exact List.append_nil _
  · rw [if_neg repeated, Bool.eq_false_iff.mpr (mt List.elem_iff.mp repeated)]
    rfl

/-- Every item is of one of two kinds. -/
theorem length_getLeft?_add_length_getRight? (items : List (α ⊕ β)) :
    (items.filterMap Sum.getLeft?).length + (items.filterMap Sum.getRight?).length =
      items.length := by
  induction items with
  | nil => rfl
  | cons item rest ih =>
      cases item with
      | inl value =>
          simp only [List.filterMap_cons, Sum.getLeft?, Sum.getRight?, List.length_cons]
          omega
      | inr value =>
          simp only [List.filterMap_cons, Sum.getLeft?, Sum.getRight?, List.length_cons]
          omega

/-! ## Items and their values -/

section Matching

variable {R : α → β → Prop} {before after : List α} {item : α} {values : List β}

/-- If items and values match one by one, so do the parts behind an item, and as many values stand
in front of its own as items in front of it. -/
theorem exists_split_of_forall₂ (h : List.Forall₂ R (before ++ item :: after) values) :
    ∃ earlier value later, values = earlier ++ value :: later ∧
      earlier.length = before.length ∧ R item value ∧ List.Forall₂ R after later := by
  induction before generalizing values with
  | nil =>
      cases h with
      | cons first rest => exact ⟨[], _, _, rfl, rfl, first, rest⟩
  | cons other before ih =>
      cases h with
      | cons first rest =>
          obtain ⟨earlier, value, later, rfl, places, matching, behind⟩ := ih rest
          exact ⟨_ :: earlier, value, later, rfl, congrArg Nat.succ places, matching, behind⟩

theorem exists_getElem?_of_forall₂ (h : List.Forall₂ R (before ++ item :: after) values) :
    ∃ value, values[before.length]? = some value ∧ R item value := by
  obtain ⟨earlier, value, later, rfl, places, matching, _⟩ := exists_split_of_forall₂ h
  refine ⟨value, ?_, matching⟩
  rw [← places, List.getElem?_append_right (Nat.le_refl _), Nat.sub_self]
  rfl

end Matching

/-- A step that gives one value for each item gives the list of them. -/
theorem mapM_eq_pure {m : Type → Type} [Monad m] [LawfulMonad m] {step : α → m β} {result : α → β}
    {items : List α} (h : ∀ item ∈ items, step item = pure (result item)) :
    items.mapM step = pure (items.map result) := by
  induction items with
  | nil => rfl
  | cons item rest ih =>
      rw [List.forall_mem_cons] at h
      rw [List.mapM_cons, h.1, pure_bind, ih h.2, pure_bind, List.map_cons]

/-! ## The front -/

section Front

variable {p : α → Bool} {items : List α} {item : α}

theorem of_mem_head?_dropWhile (h : item ∈ (items.dropWhile p).head?) : p item = false := by
  have first := List.head?_dropWhile_not p items
  rwa [Option.mem_def.mp h] at first

theorem dropWhile_of_head (h : ∀ item ∈ items.head?, p item = false) :
    items.dropWhile p = items := by
  cases items with
  | nil => rfl
  | cons first rest =>
      rw [List.dropWhile_cons_of_neg (by rw [h first rfl]; exact Bool.false_ne_true)]

end Front

end Lists

end TypeDictionary
