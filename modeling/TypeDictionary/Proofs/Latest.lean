import Mathlib.Data.List.Find
import Mathlib.Data.List.Induction

/-!
# The latest item

Where later items take the place of earlier ones, what counts is the last item of a list with a
property. `List.findRev?` finds it; these laws say how it changes when the list grows at its end,
which is how the program adds to its lists.
-/

namespace TypeDictionary

namespace Latest

variable {α : Type} {p : α → Bool} {items : List α} {item : α}

theorem findRev?_concat :
    (items ++ [item]).findRev? p = if p item then some item else items.findRev? p := by
  simp only [List.findRev?_eq_find?_reverse, List.reverse_append, List.reverse_singleton,
    List.singleton_append, List.find?_cons]
  cases p item <;> rfl

theorem findRev?_append (first second : List α) :
    (first ++ second).findRev? p = (second.findRev? p).or (first.findRev? p) := by
  simp only [List.findRev?_eq_find?_reverse, List.reverse_append, List.find?_append]

theorem findRev?_eq_none_iff : items.findRev? p = none ↔ ∀ other ∈ items, ¬p other := by
  simp only [List.findRev?_eq_find?_reverse, List.find?_eq_none, List.mem_reverse]

theorem findRev?_map {β : Type} (f : β → α) (sources : List β) :
    (sources.map f).findRev? p = (sources.findRev? fun source => p (f source)).map f := by
  simp only [List.findRev?_eq_find?_reverse, ← List.map_reverse, List.find?_map]
  rfl

theorem findRev?_filterMap {β : Type} (f : β → Option α) (sources : List β) :
    (sources.filterMap f).findRev? p =
      (sources.findRev? fun source => (f source).any p).bind f := by
  simp only [List.findRev?_eq_find?_reverse, ← List.filterMap_reverse, List.find?_filterMap]

theorem findRev?_congr {q : α → Bool} (h : ∀ other ∈ items, p other = q other) :
    items.findRev? p = items.findRev? q := by
  simp only [List.findRev?_eq_find?_reverse]
  exact List.find?_congr fun other hother => h other (List.mem_reverse.mp hother)

/-- The latest item has the property, and no item behind it does. -/
theorem findRev?_eq_some_iff :
    items.findRev? p = some item ↔
      p item ∧ ∃ before after, items = before ++ item :: after ∧ ∀ later ∈ after, ¬p later := by
  rw [List.findRev?_eq_find?_reverse, List.find?_eq_some_iff_append]
  constructor
  · rintro ⟨hitem, after, before, split, hafter⟩
    refine ⟨hitem, before.reverse, after.reverse, ?_, ?_⟩
    · have turned := congrArg List.reverse split
      simpa using turned
    · intro later hlater
      simpa using hafter later (List.mem_reverse.mp hlater)
  · rintro ⟨hitem, before, after, rfl, hafter⟩
    refine ⟨hitem, after.reverse, before.reverse, by simp, ?_⟩
    intro later hlater
    simpa using hafter later (List.mem_reverse.mp hlater)

theorem of_findRev?_eq_some {q : α → Prop} [DecidablePred q]
    (h : items.findRev? (fun other => decide (q other)) = some item) : q item :=
  of_decide_eq_true (findRev?_eq_some_iff.mp h).1

theorem mem_of_findRev?_eq_some (h : items.findRev? p = some item) : item ∈ items := by
  obtain ⟨_, before, after, rfl, _⟩ := findRev?_eq_some_iff.mp h
  exact List.mem_append_right before List.mem_cons_self

theorem isSome_findRev? : (items.findRev? p).isSome = items.any p := by
  rw [List.findRev?_eq_find?_reverse, List.isSome_find?, List.any_reverse]

/-- Among items with different keys there is one of a key at most, so the first is the last. -/
theorem find?_eq_findRev?_of_nodup {κ : Type} [DecidableEq κ] {key : α → κ}
    (distinct : (items.map key).Nodup) (wanted : κ) :
    (items.find? fun item => key item = wanted) = items.findRev? fun item => key item = wanted := by
  induction items using List.reverseRecOn with
  | nil => rfl
  | append_singleton items item ih =>
      rw [List.map_append, List.nodup_append] at distinct
      obtain ⟨distinct, _, apart⟩ := distinct
      rw [List.find?_append, ih distinct, findRev?_concat]
      by_cases same : key item = wanted
      · have before : (items.findRev? fun other => key other = wanted) = none := by
          rw [findRev?_eq_none_iff]
          intro other hother hkey
          have both := apart (key other) (List.mem_map_of_mem hother) (key item) (by simp)
          exact both ((of_decide_eq_true hkey).trans same.symm)
        rw [before, Option.none_or, if_pos (decide_eq_true same)]
        exact List.find?_cons_of_pos (decide_eq_true same)
      · have behind : ([item].find? fun other => key other = wanted) = none :=
          List.find?_cons_of_neg (by simpa using same)
        rw [behind, Option.or_none, if_neg (by simpa using same)]

end Latest

end TypeDictionary
