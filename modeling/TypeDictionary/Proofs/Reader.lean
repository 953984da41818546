import TypeDictionary.Text.Reader

/-!
# What readers come to

The answer of a reader carries how many items it has used. What matters to a caller is the value and
the items left, and these can be told for a composed reader from those of its parts.
-/

namespace TypeDictionary.Text.Reader

variable {σ ε α β : Type}

/-- What a reader makes of a list, and the items that it leaves. -/
def result (reader : Reader σ ε α) (input : List σ) : Except ε (α × List σ) :=
  (reader input).map fun reading => (reading.value, reading.rest)

theorem run_eq (reader : Reader σ ε α) (input : List σ) :
    reader.run input = (reader.result input).map Prod.fst := by
  unfold run result
  cases reader input <;> rfl

@[simp] theorem ok_bind (value : α) (next : α → Except ε β) :
    (Except.ok value >>= next) = next value := rfl

@[simp] theorem map_ok (value : α) (f : α → β) :
    (Except.ok value : Except ε α).map f = .ok (f value) := rfl

@[simp] theorem result_pure (value : α) (input : List σ) :
    result (pure value : Reader σ ε α) input = .ok (value, input) := rfl

@[simp] theorem result_bind (first : Reader σ ε α) (next : α → Reader σ ε β) (input : List σ) :
    result (first >>= next) input =
      first.result input >>= fun reading => (next reading.1).result reading.2 := by
  unfold result
  simp only [bind]
  cases first input with
  | error e => rfl
  | ok reading =>
      dsimp only [Except.map, Except.bind]
      cases next reading.value reading.rest <;> rfl

@[simp] theorem result_map (f : α → β) (reader : Reader σ ε α) (input : List σ) :
    result (f <$> reader) input =
      (reader.result input).map fun reading => (f reading.1, reading.2) := by
  change result (reader >>= fun value => pure (f value)) input = _
  rw [result_bind]
  cases reader.result input <;> rfl

@[simp] theorem result_ite (condition : Prop) [Decidable condition] (first second : Reader σ ε α)
    (input : List σ) :
    result (if condition then first else second) input =
      if condition then first.result input else second.result input := by
  split <;> rfl

@[simp] theorem result_remaining (input : List σ) :
    result (remaining : Reader σ ε (List σ)) input = .ok (input, input) := rfl

@[simp] theorem result_takeWhile (p : σ → Bool) (input : List σ) :
    result (takeWhile p : Reader σ ε (List σ)) input =
      .ok (input.takeWhile p, input.dropWhile p) := rfl

theorem length_le_of_result {reader : Reader σ ε α} {input left : List σ} {value : α}
    (h : reader.result input = .ok (value, left)) : left.length ≤ input.length := by
  unfold result at h
  cases answer : reader input with
  | error e => simp [answer, Except.map] at h
  | ok reading =>
      obtain ⟨found, rest, used, enough⟩ := reading
      simp only [answer, Except.map, Except.ok.injEq, Prod.mk.injEq] at h
      obtain ⟨-, rfl⟩ := h
      omega

section Iterate

variable (step : β → Reader σ ε (Option β))

/-- The loop comes to the same wherever it has begun. -/
theorem map_iterateFrom {input : List σ} (state : β) (rest : List σ) (used : Nat)
    (h : used + rest.length = input.length) :
    (iterateFrom step state rest used h).map (fun reading => (reading.value, reading.rest)) =
      result (iterate step state) rest := by
  -- on the items left: the list that the loop began with only has to fit what has been used
  induction n : rest.length using Nat.strongRecOn generalizing input state rest used with
  | ind n ih =>
      unfold result iterate
      rw [iterateFrom, iterateFrom]
      cases step state rest with
      | error e => rfl
      | ok reading =>
          obtain ⟨answer, left, more, enough⟩ := reading
          cases answer with
          | none => rfl
          | some next =>
              dsimp only
              split
              · rfl
              · rw [ih left.length (by omega) next left _ _ rfl,
                  ih left.length (by omega) next left _ _ rfl]

variable {step} {state next : β} {input left : List σ}

theorem result_iterate_of_none (h : (step state).result input = .ok (none, left)) :
    (iterate step state).result input = .ok (state, left) := by
  rw [← map_iterateFrom step state input 0 (Nat.zero_add _), iterateFrom]
  unfold result at h
  cases answer : step state input with
  | error e => simp [answer, Except.map] at h
  | ok reading =>
      obtain ⟨value, rest, more, enough⟩ := reading
      simp only [answer, Except.map, Except.ok.injEq, Prod.mk.injEq] at h
      obtain ⟨rfl, rfl⟩ := h
      rfl

theorem result_iterate_of_some (h : (step state).result input = .ok (some next, left))
    (progress : left.length < input.length) :
    (iterate step state).result input = (iterate step next).result left := by
  rw [← map_iterateFrom step state input 0 (Nat.zero_add _), iterateFrom]
  unfold result at h
  cases answer : step state input with
  | error e => simp [answer, Except.map] at h
  | ok reading =>
      obtain ⟨value, rest, more, enough⟩ := reading
      simp only [answer, Except.map, Except.ok.injEq, Prod.mk.injEq] at h
      obtain ⟨rfl, rfl⟩ := h
      dsimp only
      rw [if_neg (by omega), map_iterateFrom]

/-- A loop ends with a step that uses nothing. -/
theorem result_iterate_of_stuck (h : (step state).result input = .ok (some next, left))
    (stuck : left.length = input.length) :
    (iterate step state).result input = .ok (next, left) := by
  rw [← map_iterateFrom step state input 0 (Nat.zero_add _), iterateFrom]
  unfold result at h
  cases answer : step state input with
  | error e => simp [answer, Except.map] at h
  | ok reading =>
      obtain ⟨value, rest, more, enough⟩ := reading
      simp only [answer, Except.map, Except.ok.injEq, Prod.mk.injEq] at h
      obtain ⟨rfl, rfl⟩ := h
      dsimp only
      rw [if_pos (by omega)]
      rfl

end Iterate

end TypeDictionary.Text.Reader
