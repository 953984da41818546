/-!
# Readers that count what they use

A reader consumes a front part of a list and fails with an error of the caller's choice. Its answer
carries the number of items used together with the proof that nothing was lost, so repetition
terminates without a bound: `Reader.iterate` goes on only while the items left become fewer.
-/

namespace TypeDictionary.Text

/-- The answer of a reader: a value, the items left, and how many were used before them. -/
structure Reading {σ : Type} (input : List σ) (α : Type) where
  value : α
  rest : List σ
  used : Nat
  used_add_length : used + rest.length = input.length

/-- A reader of items `σ` that fails with an `ε`. -/
def Reader (σ ε α : Type) : Type := (input : List σ) → Except ε (Reading input α)

namespace Reader

variable {σ ε α β : Type}

instance : Monad (Reader σ ε) where
  pure value := fun input => .ok ⟨value, input, 0, by simp⟩
  bind first next := fun input =>
    match first input with
    | .error e => .error e
    | .ok ⟨value, middle, used, h⟩ =>
      match next value middle with
      | .error e => .error e
      | .ok ⟨result, rest, more, h'⟩ => .ok ⟨result, rest, used + more, by omega⟩

/-- What a reader makes of a list, without the items that it leaves. -/
def run (reader : Reader σ ε α) (input : List σ) : Except ε α :=
  (reader input).map Reading.value

/-- The items that are left. A caller keeps them as a mark of the place. -/
def remaining : Reader σ ε (List σ) := fun input => .ok ⟨input, input, 0, by simp⟩

def failWith (error : List σ → ε) : Reader σ ε α := fun input => .error (error input)

def skip : Reader σ ε Unit
  | [] => .ok ⟨(), [], 0, rfl⟩
  | _ :: rest => .ok ⟨(), rest, 1, by simp; omega⟩

/-- Uses the given items if the input begins with them, and tells whether it does. -/
def accept [DecidableEq σ] (items : List σ) : Reader σ ε Bool := fun input =>
  if h : items.isPrefixOf input then
    .ok ⟨true, input.drop items.length, items.length, by
      have := (List.isPrefixOf_iff_prefix.1 h).length_le
      simp; omega⟩
  else .ok ⟨false, input, 0, by simp⟩

/-- Uses and returns the longest front part whose items satisfy a predicate. -/
def takeWhile (p : σ → Bool) : Reader σ ε (List σ) := fun input =>
  .ok ⟨input.takeWhile p, input.dropWhile p, (input.takeWhile p).length, by
    rw [← List.length_append, List.takeWhile_append_dropWhile]⟩

/-- The loop of `iterate`, after `used` items of `input` have been used. -/
def iterateFrom (step : β → Reader σ ε (Option β)) {input : List σ} (state : β) (rest : List σ)
    (used : Nat) (h : used + rest.length = input.length) : Except ε (Reading input β) :=
  match step state rest with
  | .error e => .error e
  | .ok ⟨none, left, more, h'⟩ => .ok ⟨state, left, used + more, by omega⟩
  | .ok ⟨some next, left, more, h'⟩ =>
    if more = 0 then .ok ⟨next, left, used + more, by omega⟩
    else iterateFrom step next left (used + more) (by omega)
termination_by rest.length
decreasing_by omega

/-- Repeats a step on a state until it answers `none` or uses nothing. -/
def iterate (step : β → Reader σ ε (Option β)) (state : β) : Reader σ ε β := fun input =>
  iterateFrom step state input 0 (by simp)

end Reader

end TypeDictionary.Text
