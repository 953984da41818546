/-!
# Runs and gaps

A list falls into runs of items that do not satisfy a predicate and gaps of items that do, which
take turns. What a reader does at one gap and the run before it can so be followed along a whole
text.
-/

namespace TypeDictionary

variable {α : Type} {p : α → Bool}

/-- A run of items that do not satisfy a predicate, alone or before a gap of items that do and a
further such list, whose first item is no part of the gap. -/
inductive Segmented (p : α → Bool) : List α → Prop
  | last {run : List α} (inside : ∀ item ∈ run, p item = false) : Segmented p run
  | more {run gap rest : List α} (inside : ∀ item ∈ run, p item = false)
      (nonempty : gap ≠ []) (between : ∀ item ∈ gap, p item = true)
      (maximal : ∀ item ∈ rest.head?, p item = false) (others : Segmented p rest) :
      Segmented p (run ++ (gap ++ rest))

theorem Segmented.cons_of_not {item : α} {rest : List α} (h : p item = false)
    (segments : Segmented p rest) : Segmented p (item :: rest) := by
  cases segments with
  | last inside => exact .last (List.forall_mem_cons.mpr ⟨h, inside⟩)
  | more inside nonempty between maximal others =>
      exact .more (List.forall_mem_cons.mpr ⟨h, inside⟩) nonempty between maximal others

/-- An item in front of a gap becomes part of it; otherwise it is a gap of its own. -/
theorem Segmented.cons_of_pos {item : α} {rest : List α} (h : p item = true)
    (segments : Segmented p rest) : Segmented p (item :: rest) := by
  have alone (maximal : ∀ next ∈ rest.head?, p next = false) : Segmented p (item :: rest) :=
    @Segmented.more α p [] [item] rest (by simp) (by simp) (by simpa using h) maximal segments
  cases segments with
  | last inside => exact alone fun next member => inside next (List.mem_of_head? member)
  | @more run gap rest inside nonempty between maximal others =>
      cases run with
      | nil =>
          exact @Segmented.more α p [] (item :: gap) rest (by simp) (by simp)
            (List.forall_mem_cons.mpr ⟨h, between⟩) maximal others
      | cons first run =>
          refine alone fun next member => ?_
          cases member
          exact inside first List.mem_cons_self

/-- Every list falls into runs and gaps. -/
theorem segmented (p : α → Bool) (items : List α) : Segmented p items := by
  induction items with
  | nil => exact .last fun _ h => absurd h List.not_mem_nil
  | cons item rest ih =>
      cases h : p item with
      | false => exact ih.cons_of_not h
      | true => exact ih.cons_of_pos h

end TypeDictionary
