import TypeDictionary.Proofs.Cell

/-!
# Gaps in scalars

Blanks and line ends inside a scalar are gathered in a gap, which becomes part of the text when more
of it follows. On a line all spaces count; where a line ends, those around the line end do not.
-/

namespace TypeDictionary.Yaml

open Cell (locateFrom)
open Scan (Reads)
open Text (Reader)
open Text.Reader (result)
open Written (endsLine)

namespace ScalarText

variable {column : Nat} {run rest : List Char}

/-- Further spaces on a line become part of a gap. -/
theorem Gap.reads_moreSpaces {gap : Gap} {spaces : List Char} (indent : Nat)
    (hasBreak : gap.hasBreak = false) (onlySpaces : ∀ c ∈ spaces, c = ' ')
    (blank : isBlank (front rest) = false) (ends : isBreak (front rest) = false) :
    Reads (gap.read indent) column (spaces ++ rest)
      { gap with blanks := spaces.reverse ++ gap.blanks } (column + spaces.length) rest := by
  induction spaces generalizing gap column with
  | nil =>
      refine .iterate_of_none fun line offset => ⟨line, offset, ?_⟩
      simp [blank, ends]
  | cons c spaces ih =>
      obtain ⟨rfl, others⟩ := List.forall_mem_cons.mp onlySpaces
      have later := @ih (column + 1) { gap with blanks := ' ' :: gap.blanks } hasBreak others
      have place : column + (' ' :: spaces).length = column + 1 + spaces.length := by
        rw [List.length_cons]
        omega
      rw [place, List.reverse_cons, List.append_assoc]
      refine .iterate_of_some (fun line offset => ⟨line, offset + ' '.utf8Size, ?_⟩) (by simp) later
      simp [isBlank, isBreak, hasBreak]

/-- Spaces behind a text on its line. -/
theorem Gap.reads_spaces {spaces : List Char} (indent : Nat) (onlySpaces : ∀ c ∈ spaces, c = ' ')
    (blank : isBlank (front rest) = false) (ends : isBreak (front rest) = false) :
    Reads (Gap.none.read indent) column (spaces ++ rest) ⟨spaces.reverse, Option.none, []⟩
      (column + spaces.length) rest := by
  have read := @reads_moreSpaces column rest .none spaces indent rfl onlySpaces blank ends
  rw [none, List.append_nil] at read
  exact read

/-- Spaces behind a line end are dropped. -/
theorem Gap.reads_indentation {gap : Gap} {spaces : List Char} (indent : Nat)
    (hasBreak : gap.hasBreak = true) (onlySpaces : ∀ c ∈ spaces, c = ' ')
    (blank : isBlank (front rest) = false) (ends : isBreak (front rest) = false) :
    Reads (gap.read indent) column (spaces ++ rest) gap (column + spaces.length) rest := by
  induction spaces generalizing column with
  | nil =>
      refine .iterate_of_none fun line offset => ⟨line, offset, ?_⟩
      simp [blank, ends]
  | cons c spaces ih =>
      obtain ⟨rfl, others⟩ := List.forall_mem_cons.mp onlySpaces
      have later := @ih (column + 1) others
      have place : column + (' ' :: spaces).length = column + 1 + spaces.length := by
        rw [List.length_cons]
        omega
      rw [place]
      refine .iterate_of_some (fun line offset => ⟨line, offset + ' '.utf8Size, ?_⟩) (by simp) later
      simp [isBlank, isBreak, hasBreak]

/-- Further line ends are gathered, and the spaces behind them are dropped. -/
theorem Gap.reads_laterBreaks {gap : Gap} {breaks spaces : List Char} (indent : Nat)
    (hasBreak : gap.hasBreak = true) (onlyBreaks : ∀ c ∈ breaks, endsLine c = true)
    (onlySpaces : ∀ c ∈ spaces, c = ' ')
    (blank : isBlank (front rest) = false) (ends : isBreak (front rest) = false) :
    Reads (gap.read indent) 0 (breaks ++ (spaces ++ rest))
      { gap with laterBreaks := breaks.reverse ++ gap.laterBreaks } spaces.length rest := by
  induction breaks generalizing gap with
  | nil => simpa using @reads_indentation 0 rest gap spaces indent hasBreak onlySpaces blank ends
  | cons c breaks ih =>
      obtain ⟨lineEnd, others⟩ := List.forall_mem_cons.mp onlyBreaks
      have later := @ih { gap with laterBreaks := c :: gap.laterBreaks } hasBreak others
      rw [List.reverse_cons, List.append_assoc]
      refine .iterate_of_some (fun line offset => ⟨line + 1, offset + c.utf8Size, ?_⟩) (by simp)
        later
      simp [hasBreak, lineEnd, isBlank_of_endsLine, isBreak_of_endsLine]

/-- Line ends behind a text, and the spaces behind them. -/
theorem Gap.reads_breaks {c : Char} {breaks spaces : List Char} (indent : Nat)
    (lineEnd : endsLine c = true) (onlyBreaks : ∀ c ∈ breaks, endsLine c = true)
    (onlySpaces : ∀ c ∈ spaces, c = ' ')
    (blank : isBlank (front rest) = false) (ends : isBreak (front rest) = false) :
    Reads (Gap.none.read indent) column (c :: (breaks ++ (spaces ++ rest)))
      ⟨[], some [c], breaks.reverse⟩ spaces.length rest := by
  have later := @reads_laterBreaks rest ⟨[], some [c], []⟩ breaks spaces indent rfl onlyBreaks
    onlySpaces blank ends
  rw [List.append_nil] at later
  refine .iterate_of_some (fun line offset => ⟨line + 1, offset + c.utf8Size, ?_⟩) (by simp) later
  simp [lineEnd, isBlank_of_endsLine, isBreak_of_endsLine, hasBreak, none]

/-- Characters behind a text without a gap. -/
theorem foldl_push_none (run text : List Char) :
    run.foldl Part.push ⟨text, .none, false⟩ = ⟨run.reverse ++ text, .none, false⟩ := by
  induction run generalizing text with
  | nil => rfl
  | cons c run ih =>
      rw [List.foldl_cons, List.reverse_cons, List.append_assoc]
      exact ih _

/-- Characters behind a text with a gap, which the first of them makes part of the text. -/
theorem foldl_push_cons (c : Char) (run : List Char) (part : Part) :
    (c :: run).foldl Part.push part =
      ⟨(c :: run).reverse ++ part.gap.joinTo part.text, .none, false⟩ := by
  rw [List.foldl_cons, List.reverse_cons, List.append_assoc]
  exact foldl_push_none _ _

end ScalarText

end TypeDictionary.Yaml
