import Mathlib.Data.List.Induction
import TypeDictionary.Proofs.Lists

/-!
# The first fault of a list

Whether an item is at fault may depend on the items before it, as with a name that must be new. The
first fault of a list is that of an item with only faultless items before it. A list without faults
has no first one, and the other way round.

The laws for longer lists follow the order in which a program meets the items: what comes later
counts only once everything before has been found faultless, and is judged with all that in front.
-/

namespace TypeDictionary

variable {α β ε : Type} {fault : List α → α → ε → Prop} {item : α} {items first second : List α}
  {error : ε}

/-- No item of a list is at fault after those before it. -/
def Faultless (fault : List α → α → ε → Prop) (items : List α) : Prop :=
  ∀ before item after, items = before ++ item :: after → ∀ error, ¬fault before item error

/-- The fault of the first item of a list that has one. -/
def FirstFault (fault : List α → α → ε → Prop) (items : List α) (error : ε) : Prop :=
  ∃ before item after, items = before ++ item :: after ∧ Faultless fault before ∧
    fault before item error

theorem faultless_nil : Faultless fault [] := by
  intro before item after split
  cases before <;> cases split

theorem faultless_append :
    Faultless fault (first ++ second) ↔
      Faultless fault first ∧ Faultless (fun before => fault (first ++ before)) second := by
  constructor
  · intro h
    refine ⟨?_, ?_⟩
    · rintro before item after rfl
      exact h before item (after ++ second) (by simp)
    · rintro before item after rfl
      exact h (first ++ before) item after (by simp)
  · rintro ⟨hfirst, hsecond⟩ before item after split
    rcases Lists.append_eq_append_cons_iff.mp split with ⟨rest, inFirst, _⟩ | ⟨rest, rfl, inSecond⟩
    · exact hfirst before item rest inFirst
    · exact hsecond rest item after inSecond

theorem faultless_singleton : Faultless fault [item] ↔ ∀ error, ¬fault [] item error := by
  constructor
  · intro h
    exact h [] item [] rfl
  · intro h before other after split
    cases before with
    | nil =>
        cases split
        exact h
    | cons _ before => cases before <;> cases split

theorem faultless_concat :
    Faultless fault (items ++ [item]) ↔
      Faultless fault items ∧ ∀ error, ¬fault items item error := by
  rw [faultless_append, faultless_singleton, List.append_nil]

theorem firstFault_append :
    FirstFault fault (first ++ second) error ↔
      FirstFault fault first error ∨
        Faultless fault first ∧
          FirstFault (fun before => fault (first ++ before)) second error := by
  constructor
  · rintro ⟨before, item, after, split, faultless, h⟩
    rcases Lists.append_eq_append_cons_iff.mp split with ⟨rest, inFirst, _⟩ | ⟨rest, rfl, inSecond⟩
    · exact .inl ⟨before, item, rest, inFirst, faultless, h⟩
    · obtain ⟨hfirst, hrest⟩ := faultless_append.mp faultless
      exact .inr ⟨hfirst, rest, item, after, inSecond, hrest, h⟩
  · rintro (⟨before, item, after, rfl, faultless, h⟩ | ⟨hfirst, before, item, after, rfl, hrest, h⟩)
    · exact ⟨before, item, after ++ second, by simp, faultless, h⟩
    · exact ⟨first ++ before, item, after, by simp, faultless_append.mpr ⟨hfirst, hrest⟩, h⟩

theorem not_firstFault_nil : ¬FirstFault fault [] error := by
  rintro ⟨before, item, after, split, _⟩
  cases before <;> cases split

theorem firstFault_singleton : FirstFault fault [item] error ↔ fault [] item error := by
  constructor
  · rintro ⟨before, other, after, split, _, h⟩
    cases before with
    | nil =>
        cases split
        exact h
    | cons _ before => cases before <;> cases split
  · intro h
    exact ⟨[], item, [], rfl, faultless_nil, h⟩

theorem firstFault_cons :
    FirstFault fault (item :: items) error ↔
      fault [] item error ∨
        (∀ error, ¬fault [] item error) ∧
          FirstFault (fun before => fault (item :: before)) items error := by
  rw [← List.singleton_append, firstFault_append, firstFault_singleton, faultless_singleton]
  rfl

theorem firstFault_map (f : β → α) (sources : List β) :
    FirstFault fault (sources.map f) error ↔
      FirstFault (fun before source => fault (before.map f) (f source)) sources error := by
  induction sources generalizing fault with
  | nil => exact ⟨fun h => absurd h not_firstFault_nil, fun h => absurd h not_firstFault_nil⟩
  | cons source rest ih =>
      rw [List.map_cons, firstFault_cons, firstFault_cons, ih]
      rfl

/-- A list with a fault has a first one. -/
theorem faultless_iff : Faultless fault items ↔ ∀ error, ¬FirstFault fault items error := by
  constructor
  · rintro faultless error ⟨before, item, after, split, _, h⟩
    exact faultless before item after split error h
  · intro h
    induction items using List.reverseRecOn with
    | nil => exact faultless_nil
    | append_singleton items item ih =>
        have hitems := ih fun error hfault => h error (firstFault_append.mpr (.inl hfault))
        refine faultless_concat.mpr ⟨hitems, ?_⟩
        intro error hfault
        exact h error ⟨items, item, [], rfl, hitems, hfault⟩

theorem faultless_map (f : β → α) (sources : List β) :
    Faultless fault (sources.map f) ↔
      Faultless (fun before source => fault (before.map f) (f source)) sources := by
  simp only [faultless_iff, firstFault_map]

/-- If no fault depends on the items before, a list is faultless when each of its items is. -/
theorem faultless_iff_forall {fault : α → ε → Prop} :
    Faultless (fun _ => fault) items ↔ ∀ item ∈ items, ∀ error, ¬fault item error := by
  constructor
  · intro faultless item hitem
    obtain ⟨before, after, split⟩ := List.append_of_mem hitem
    exact faultless before item after split
  · rintro h before item after rfl
    exact h item (by simp)

end TypeDictionary
