import Mathlib.Data.List.Chain
import TypeDictionary.Proofs.Gap
import TypeDictionary.Proofs.Segment

/-!
# Plain scalars

A text that may be written as it is falls into runs of characters with spaces between them. Each run
is read up to its end, since no colon in it comes before a gap, and the spaces behind it are kept
until more of the text comes. The line end behind the last run ends the scalar if the next line is
not indented as far as the scalar asks.
-/

namespace TypeDictionary.Yaml

open Cell (locateFrom)
open Scan (Reads)
open Text (Reader)
open Text.Reader (result)

namespace ScalarText

variable {line column offset : Nat} {text run rest : List Char} {part : Part}

/-- Where a run of a plain scalar stops: at a gap, or at a colon before one. -/
def StopsPlain (rest : List Char) : Prop :=
  isGap (front rest) = true ∨ (front rest = ':' ∧ isGap (front rest.tail) = true)

/-- Characters that a plain scalar has in a row. -/
structure IsRun (run : List Char) : Prop where
  solid : ∀ c ∈ run, isGap c = false
  noColon : run.getLast? ≠ some ':'

theorem result_plainRun (isRun : IsRun run) (stops : StopsPlain rest) :
    result (plainRun false part) (locateFrom line column offset (run ++ rest)) =
      .ok (run.foldl Part.push part,
        locateFrom line (column + run.length) (offset + byteLength run) rest) := by
  induction run generalizing column offset part with
  | nil =>
      apply Reader.result_iterate_of_none
      rcases stops with stops | stops <;> simp [stops, byteLength]
  | cons c run ih =>
      have solid := List.forall_mem_cons.mp isRun.solid
      have notBreak := isBreak_of_isGap solid.1
      have later : IsRun run := ⟨solid.2, fun h => isRun.noColon (by
        cases run with
        | nil => cases h
        | cons d run => exact h)⟩
      -- a colon does not stop the run, since it is not the last and what is behind it is no gap
      have goesOn : ¬(c = ':' ∧ isGap (front (run ++ rest)) = true) := by
        rintro ⟨rfl, gap⟩
        cases run with
        | nil => exact isRun.noColon rfl
        | cons d run => 
          simp [solid.2 d] at gap
      have others := @ih (column + 1) (offset + c.utf8Size) (part.push c) later
      rw [Cell.locateFrom_behind_cons, List.foldl_cons]
      refine (Reader.result_iterate_of_some ?_ ?_).trans others
      · simp [solid.1, goesOn, notBreak]
      · simp

/-- One run of a plain scalar with the gap behind it. -/
def plainStep (indent : Nat) (part : Part) : Scan (Option Part) := do
  if part.ended then return none
  else if (← Scan.here).char = '#' ∨ (← Scan.atDocumentMark) then return none
  else
    let part ← plainRun false part
    let c := (← Scan.here).char
    if !(isBlank c || isBreak c) then return some { part with ended := true }
    let gap ← part.gap.read indent
    let ended := !false && decide ((← Scan.here).column < indent)
    return some { part with gap, ended }

theorem plain_eq (indent : Nat) :
    plain false indent = (do
      let part ← Scan.iterate (plainStep indent) Part.start
      return (String.ofList part.text.reverse, part.gap.hasBreak)) := rfl

/-- Whether two characters in a row end a plain scalar: a colon before a gap, or a hash sign after
one. -/
def endsPlain (a b : Char) : Bool := (a = ':' && isGap b) || (isGap a && b = '#')

/-- What a plain scalar holds after a gap. -/
structure IsPlain (text : List Char) : Prop where
  nonempty : text ≠ []
  solid : ∀ c ∈ text, c = ' ' ∨ isGap c = false
  begins : text.head? ≠ some ' ' ∧ text.head? ≠ some '#'
  ends : text.getLast? ≠ some ' ' ∧ text.getLast? ≠ some ':'
  noIndicator : text.IsChain fun a b => endsPlain a b = false

theorem IsPlain.isRun (h : IsPlain run) (inside : ∀ c ∈ run, decide (c = ' ') = false) :
    IsRun run where
  solid c hc := (h.solid c hc).resolve_left (of_decide_eq_false (inside c hc))
  noColon := h.ends.2

/-- A plain scalar that does not end with its first run of characters. -/
theorem IsPlain.split {gap : List Char} (h : IsPlain (run ++ (gap ++ text)))
    (inside : ∀ c ∈ run, decide (c = ' ') = false) (nonempty : gap ≠ [])
    (between : ∀ c ∈ gap, decide (c = ' ') = true)
    (maximal : ∀ c ∈ text.head?, decide (c = ' ') = false) :
    run ≠ [] ∧ IsRun run ∧ IsPlain text := by
  obtain ⟨last, hlast⟩ : ∃ last, gap.getLast? = some last :=
    ⟨_, List.getLast?_eq_some_getLast nonempty⟩
  obtain ⟨first, others, rfl⟩ := List.exists_cons_of_ne_nil nonempty
  have space {c : Char} (hc : c ∈ first :: others) : c = ' ' := of_decide_eq_true (between c hc)
  have firstSpace : first = ' ' := space List.mem_cons_self
  have lastSpace : last = ' ' := space (List.mem_of_getLast? hlast)
  obtain ⟨_, later, runToGap⟩ := List.isChain_append.mp h.noIndicator
  obtain ⟨_, chain, gapToText⟩ := List.isChain_append.mp later
  have textNonempty : text ≠ [] := by
    rintro rfl
    have : (run ++ (first :: others ++ [])).getLast? = some last := by
      rw [List.append_nil, List.getLast?_append, hlast, Option.some_or]
    exact h.ends.1 (this.trans (congrArg some lastSpace))
  refine ⟨?_, ⟨fun c hc => ?_, fun colon => ?_⟩,
    ⟨textNonempty, fun c hc => ?_, ⟨?_, ?_⟩, ?_, chain⟩⟩
  · rintro rfl
    exact h.begins.1 (congrArg some firstSpace)
  · exact (h.solid c (List.mem_append_left _ hc)).resolve_left (of_decide_eq_false (inside c hc))
  · have := runToGap ':' colon first rfl
    rw [firstSpace] at this
    exact absurd this (by decide)
  · exact h.solid c (List.mem_append_right _ (List.mem_append_right _ hc))
  · intro begins
    exact absurd rfl (of_decide_eq_false (maximal ' ' begins))
  · intro begins
    have := gapToText last hlast '#' begins
    rw [lastSpace] at this
    exact absurd this (by decide)
  · have same : (run ++ (first :: others ++ text)).getLast? = text.getLast? := by
      rw [List.getLast?_append, List.getLast?_append, List.getLast?_eq_some_getLast textNonempty,
        Option.some_or, Option.some_or]
    rw [← same]
    exact h.ends

/-- A run up to a space or a line end, and the gap that begins there. -/
theorem reads_plainStep {indent column' : Nat} {c : Char} {separator : List Char} {gap : Gap}
    (isRun : IsRun (c :: run)) (notHash : c ≠ '#') (goesOn : part.ended = false)
    (notFirst : column ≠ 0) (separates : isBlank (front separator) || isBreak (front separator))
    (reads : Reads (Gap.none.read indent) (column + (c :: run).length) separator gap column' rest) :
    Reads (plainStep indent part) column (c :: run ++ separator)
      (some ⟨(c :: run).reverse ++ part.gap.joinTo part.text, gap, decide (column' < indent)⟩)
      column' rest := by
  have stops : StopsPlain separator := by
    left
    unfold isGap isLineEnd
    grind
  intro line offset
  have ran := @result_plainRun line column offset (c :: run) separator part isRun stops
  rw [foldl_push_cons] at ran
  obtain ⟨line', offset', read⟩ := reads line (offset + byteLength (c :: run))
  refine ⟨line', offset', ?_⟩
  rw [List.length_cons] at read
  rw [List.cons_append] at ran ⊢
  have goesOn' : ¬(isBlank (front separator) = false ∧ isBreak (front separator) = false) := by
    grind
  simp [plainStep, goesOn, notFirst, notHash, ran, goesOn', read]

/-- The runs of a plain scalar and the spaces between them are read up to the end of its line. -/
theorem reads_plainLoop {indent : Nat} {blanks spaces : List Char} (h : IsPlain text)
    (inside : indent ≤ column) (notFirst : column ≠ 0)
    (onlySpaces : ∀ c ∈ spaces, c = ' ') (outside : spaces.length < indent)
    (blank : isBlank (front rest) = false) (ends : isBreak (front rest) = false)
    (before : List Char) :
    Reads (Scan.iterate (plainStep indent) ⟨before, ⟨blanks, none, []⟩, false⟩) column
      (text ++ '\n' :: (spaces ++ rest))
      ⟨text.reverse ++ (blanks ++ before), ⟨[], some ['\n'], []⟩, true⟩ spaces.length rest := by
  induction segmented (fun c => decide (c = ' ')) text generalizing column blanks before with
  | @last run solid =>
      have isRun := h.isRun solid
      obtain ⟨c, others, rfl⟩ := List.exists_cons_of_ne_nil h.nonempty
      have notHash : c ≠ '#' := fun same => h.begins.2 (congrArg some same)
      -- the next line begins to the left of the scalar, so the line end ends it
      have lineEnd := @Gap.reads_breaks (column + (c :: others).length) rest '\n' [] spaces indent
        (by decide) (by simp) onlySpaces blank ends
      have step := @reads_plainStep column others rest ⟨before, ⟨blanks, none, []⟩, false⟩ indent
        _ _ _ _ isRun notHash rfl notFirst rfl lineEnd
      rw [decide_eq_true outside] at step
      refine .iterate_of_some step (by simp; omega) ?_
      exact .iterate_of_none fun line offset => ⟨line, offset, by simp [plainStep]⟩
  | @more run gap text solid nonempty between maximal others ih =>
      obtain ⟨runNonempty, isRun, isPlain⟩ := h.split solid nonempty between maximal
      obtain ⟨c, others, rfl⟩ := List.exists_cons_of_ne_nil runNonempty
      have notHash : c ≠ '#' := fun same => h.begins.2 (congrArg some same)
      have onlyGap : ∀ c ∈ gap, c = ' ' := fun c hc => of_decide_eq_true (between c hc)
      have solidFront : isGap (front (text ++ '\n' :: (spaces ++ rest))) = false := by
        obtain ⟨d, later, rfl⟩ := List.exists_cons_of_ne_nil isPlain.nonempty
        exact (isPlain.solid d List.mem_cons_self).resolve_left
          (of_decide_eq_false (maximal d rfl))
      -- the spaces are pending until the first character of the next run joins them to the text
      have read := @Gap.reads_spaces (column + (c :: others).length) _ gap indent onlyGap
        (isBlank_of_isGap solidFront) (isBreak_of_isGap solidFront)
      have separates : isBlank (front (gap ++ (text ++ '\n' :: (spaces ++ rest)))) = true := by
        obtain ⟨first, later, rfl⟩ := List.exists_cons_of_ne_nil nonempty
        rw [onlyGap first List.mem_cons_self]
        rfl
      have step := @reads_plainStep column others _ ⟨before, ⟨blanks, none, []⟩, false⟩ indent
        _ _ _ _ isRun notHash rfl notFirst (by simp [separates]) read
      have notOutside : ¬column + (c :: others).length + gap.length < indent := by omega
      rw [decide_eq_false notOutside] at step
      have later := @ih (column + (c :: others).length + gap.length) gap.reverse
        isPlain (by omega) (by omega) ((c :: others).reverse ++ (blanks ++ before))
      have same : (c :: others ++ (gap ++ text)).reverse ++ (blanks ++ before) =
          text.reverse ++ (gap.reverse ++ ((c :: others).reverse ++ (blanks ++ before))) := by
        simp
      rw [same]
      simp only [List.append_assoc] at step later ⊢
      exact .iterate_of_some step (by simp; omega) later

/-- A text that may be written plain is read from where it stands up to the next line. -/
theorem reads_plain {indent : Nat} {spaces : List Char} (h : IsPlain text)
    (inside : indent ≤ column) (notFirst : column ≠ 0)
    (onlySpaces : ∀ c ∈ spaces, c = ' ') (outside : spaces.length < indent)
    (blank : isBlank (front rest) = false) (ends : isBreak (front rest) = false) :
    Reads (plain false indent) column (text ++ '\n' :: (spaces ++ rest)) (String.ofList text, true)
      spaces.length rest := by
  rw [plain_eq]
  refine (reads_plainLoop h inside notFirst onlySpaces outside blank ends []).bind ?_
  exact fun line offset => ⟨line, offset, by simp [Gap.hasBreak]⟩

end ScalarText

end TypeDictionary.Yaml
