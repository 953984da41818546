import Mathlib.Data.List.Chain
import Mathlib.Tactic.Ring
import TypeDictionary.Proofs.Gap
import TypeDictionary.Proofs.Segment

/-!
# Quoted scalars

Between quotes a text falls into runs of characters with gaps between them. A character of a run is
read from what is written for it: in single quotes it stands for itself or is doubled, and in double
quotes it may also be escaped, by a letter or by its code point. In double quotes line ends are
escaped too, so gaps are spaces. In single quotes a gap may also be made of line ends, with the
indentation of the next line behind them, which is dropped again.
-/

namespace TypeDictionary.Yaml

open Cell (locateFrom)
open Scan (Reads)
open Text (Reader)
open Text.Reader (result)
open Written (endsLine)

namespace ScalarText

variable {column : Nat} {quote c : Char} {text run written rest : List Char} {part : Part}

theorem isGap_of_isPrintable (h : Written.isPrintable c = true) (notSpace : c ≠ ' ')
    (oneLine : endsLine c = false) : isGap c = false :=
  @isGap_eq_false (fun c => Written.isPrintable c && c ≠ ' ' && !endsLine c) (by decide) c
    (by simp [h, notSpace, oneLine])

/-- One character of a run in quotes. -/
def quotedRunStep (quote : Char) (part : Part) : Scan (Option Part) := do
  let c := (← Scan.here).char
  let next ← Scan.ahead 1
  if part.ended ∨ isGap c then return none
  else if quote = '\'' ∧ c = '\'' ∧ next = '\'' then
    Scan.skipMany 2
    return some (part.push '\'')
  else if c = quote then return none
  else if quote = '"' ∧ c = '\\' ∧ isBreak next then
    Scan.skip
    let _ ← Scan.lineBreak
    return some ⟨part.text, ⟨[], some [], []⟩, true⟩
  else if quote = '"' ∧ c = '\\' then
    Scan.skip
    return some (part.push (← escape))
  else
    Scan.skip
    return some (part.push c)

theorem quotedRun_eq (quote : Char) (part : Part) :
    quotedRun quote part = Scan.iterate (quotedRunStep quote) part := rfl

/-- A run in quotes with the gap behind it, or the closing quote. -/
def quotedStep (quote : Char) (part : Part) : Scan (Option Part) := do
  if part.ended then return none
  if (← Scan.atDocumentMark) ∨ (← Scan.here).char = theEnd then Scan.fail
  let part ← quotedRun quote part
  if (← Scan.here).char = quote ∧ !part.ended then
    Scan.skip
    return some { part with ended := true }
  let gap ← part.gap.read 0
  return some ⟨gap.joinTo part.text, .none, false⟩

theorem quoted_eq :
    quoted = (do
      let quote := (← Scan.here).char
      Scan.skip
      let part ← Scan.iterate (quotedStep quote) Part.start
      return String.ofList part.text.reverse) := rfl

/-- A character is read from what is written for it between quotes. -/
structure Spells (quote c : Char) (written : List Char) : Prop where
  solid : isGap (front written) = false
  reads : ∀ (part : Part) (column : Nat) (rest : List Char), part.ended = false →
    Reads (quotedRunStep quote part) column (written ++ rest) (some (part.push c))
      (column + written.length) rest

theorem Spells.exists_cons (h : Spells quote c written) : ∃ d rest, written = d :: rest := by
  cases written with
  | nil => exact absurd h.solid (by decide)
  | cons d rest => exact ⟨d, rest, rfl⟩

/-- Where a run in quotes stops: at a gap, or at the closing quote. -/
def StopsQuoted (quote : Char) (rest : List Char) : Prop :=
  isGap (front rest) = true ∨ (front rest = quote ∧ front rest.tail ≠ quote)

section Quoted

variable {write : Char → List Char}

theorem reads_quotedRun (spells : ∀ c ∈ run, Spells quote c (write c))
    (goesOn : part.ended = false) (stops : StopsQuoted quote rest) :
    Reads (quotedRun quote part) column (run.flatMap write ++ rest) (run.foldl Part.push part)
      (column + (run.flatMap write).length) rest := by
  rw [quotedRun_eq]
  induction run generalizing column part with
  | nil =>
      refine .iterate_of_none fun line offset => ⟨line, offset, ?_⟩
      rcases stops with stops | ⟨stops, single⟩
      · simp [quotedRunStep, stops]
      · have notDoubled : ¬(quote = '\'' ∧ front rest.tail = '\'') :=
          fun doubled => single (doubled.2.trans doubled.1.symm)
        simp [quotedRunStep, stops, notDoubled]
  | cons c run ih =>
      rw [List.forall_mem_cons] at spells
      have first := spells.1.reads part column (run.flatMap write ++ rest) goesOn
      have later := @ih (column + (write c).length) (part.push c) spells.2 rfl
      rw [List.flatMap_cons, List.length_append, List.append_assoc, ← Nat.add_assoc]
      refine .iterate_of_some first ?_ later
      obtain ⟨d, others, same⟩ := spells.1.exists_cons
      rw [same, List.length_append, List.length_append, List.length_append, List.length_cons]
      omega

theorem front_run_ne (spells : ∀ c ∈ run, Spells quote c (write c)) (ends : front rest ≠ theEnd) :
    front (run.flatMap write ++ rest) ≠ theEnd := by
  cases run with
  | nil => exact ends
  | cons c run =>
      obtain ⟨d, others, same⟩ := (spells c List.mem_cons_self).exists_cons
      have solid := (spells c List.mem_cons_self).solid
      rw [same, front_cons] at solid
      rw [List.flatMap_cons, same]
      rintro rfl
      exact absurd solid (by decide)

/-- A run with the gap behind it. -/
theorem reads_quotedStep {separator before : List Char} {gap : Gap} {column' : Nat}
    (spells : ∀ c ∈ run, Spells quote c (write c)) (notFirst : column ≠ 0)
    (notQuote : front separator ≠ quote)
    (separates : isBlank (front separator) || isBreak (front separator))
    (reads : Reads (Gap.none.read 0) (column + (run.flatMap write).length) separator gap column'
      rest) :
    Reads (quotedStep quote ⟨before, .none, false⟩) column (run.flatMap write ++ separator)
      (some ⟨gap.joinTo (run.reverse ++ before), .none, false⟩) column' rest := by
  have stops : StopsQuoted quote separator := by
    left
    unfold isGap isLineEnd
    grind
  have notEnd : front (run.flatMap write ++ separator) ≠ theEnd := by
    refine front_run_ne spells fun same => ?_
    rw [same] at separates
    exact absurd separates (by decide)
  have ran := @reads_quotedRun column quote run separator ⟨before, .none, false⟩ write spells rfl
    stops
  rw [foldl_push_none] at ran
  intro line offset
  obtain ⟨line', offset', ran⟩ := ran line offset
  obtain ⟨line'', offset'', read⟩ := reads line' offset'
  refine ⟨line'', offset'', ?_⟩
  simp [quotedStep, notFirst, notEnd, ran, notQuote, read, -List.length_flatMap]

/-- The last run with the closing quote. -/
theorem reads_closingQuote {before : List Char}
    (spells : ∀ c ∈ run, Spells quote c (write c)) (notFirst : column ≠ 0)
    (isQuote : quote = '\'' ∨ quote = '"') (single : front rest ≠ quote) :
    Reads (Scan.iterate (quotedStep quote) ⟨before, .none, false⟩) column
      (run.flatMap write ++ quote :: rest) ⟨run.reverse ++ before, .none, true⟩
      (column + (run.flatMap write).length + 1) rest := by
  have stops : StopsQuoted quote (quote :: rest) := .inr ⟨rfl, single⟩
  have notEnd : front (run.flatMap write ++ quote :: rest) ≠ theEnd := by
    refine front_run_ne spells fun same => ?_
    rw [front_cons] at same
    rcases isQuote with rfl | rfl <;> exact absurd same (by decide)
  have notBreak : isBreak quote = false := by
    rcases isQuote with rfl | rfl <;> decide
  have ran := @reads_quotedRun column quote run (quote :: rest) ⟨before, .none, false⟩ write spells
    rfl stops
  rw [foldl_push_none] at ran
  have closes : Reads (quotedStep quote ⟨before, .none, false⟩) column
      (run.flatMap write ++ quote :: rest) (some ⟨run.reverse ++ before, .none, true⟩)
      (column + (run.flatMap write).length + 1) rest := by
    intro line offset
    obtain ⟨line', offset', ran⟩ := ran line offset
    refine ⟨line', offset' + quote.utf8Size, ?_⟩
    simp [quotedStep, notFirst, notEnd, ran, notBreak, -List.length_flatMap]
  refine .iterate_of_some closes (by simp; omega) (.iterate_of_none fun line offset => ?_)
  exact ⟨line, offset, by simp [quotedStep]⟩

end Quoted

/-- A quote is doubled in single quotes, and other characters stand for themselves. -/
theorem spells_single (solid : isGap c = false) :
    Spells '\'' c (if c = '\'' then ['\'', '\''] else [c]) := by
  split
  · rename_i same
    subst same
    refine ⟨by decide, fun part column rest goesOn line offset =>
      ⟨line, offset + '\''.utf8Size + '\''.utf8Size, ?_⟩⟩
    simp [quotedRunStep, goesOn, solid, Scan.skipMany, isBreak]
  · rename_i other
    refine ⟨solid, fun part column rest goesOn line offset => ⟨line, offset + c.utf8Size, ?_⟩⟩
    simp [quotedRunStep, goesOn, solid, other, isBreak_of_isGap]

/-- A character that needs no escape stands for itself in double quotes. -/
theorem spells_itself (solid : isGap c = false) (notQuote : c ≠ '"') (notEscape : c ≠ '\\') :
    Spells '"' c [c] := by
  refine ⟨solid, fun part column rest goesOn line offset => ⟨line, offset + c.utf8Size, ?_⟩⟩
  simp [quotedRunStep, goesOn, solid, notQuote, notEscape, isBreak_of_isGap]

/-- An escape of one letter stands for its character. -/
theorem spells_escaped {letter : Char} (h : escaped? letter = some c)
    (solid : isGap letter = false) :
    Spells '"' c ['\\', letter] := by
  refine ⟨by rw [front_cons]; decide, fun part column rest goesOn line offset =>
    ⟨line, offset + '\\'.utf8Size + letter.utf8Size, ?_⟩⟩
  have notBreak := isBreak_of_isGap solid
  have here : isGap '\\' = false := by decide
  have here' : isBreak '\\' = false := by decide
  simp [quotedRunStep, goesOn, here, here', notBreak, escape, h]

section Hexadecimal

open Written (hexDigits)
open Text (Numeral.digit? Numeral.continue? Numeral.natural?)

theorem hexDigits_succ (count n : Nat) :
    hexDigits (count + 1) n =
      (Nat.digitChar ((n >>> (4 * count)) % 16)).toUpper :: hexDigits count n := by
  simp [hexDigits, List.range_succ]

theorem digit?_hexDigit : ∀ d < 16, Numeral.digit? 16 (Nat.digitChar d).toUpper = some d := by
  decide

theorem isBreak_hexDigit : ∀ d < 16, isBreak (Nat.digitChar d).toUpper = false := by
  decide

theorem continue?_hexDigits (count n value : Nat) :
    Numeral.continue? 16 value (hexDigits count n) =
      some (value * 16 ^ count + n % 16 ^ count) := by
  induction count generalizing value with
  | zero => simp [hexDigits, Numeral.continue?, Nat.mod_one]
  | succ count ih =>
      have small : (n >>> (4 * count)) % 16 < 16 := Nat.mod_lt _ (by decide)
      have shifted : n >>> (4 * count) = n / 16 ^ count := by
        rw [Nat.shiftRight_eq_div_pow, Nat.pow_mul]
      rw [hexDigits_succ, Numeral.continue?, digit?_hexDigit _ small]
      simp only [Option.bind_eq_bind, Option.bind_some, ih]
      congr 1
      rw [shifted, Nat.mod_pow_succ]
      ring

theorem natural?_hexDigits {count n : Nat} (positive : 0 < count) (small : n < 16 ^ count) :
    Numeral.natural? 16 (hexDigits count n) = some n := by
  have read := continue?_hexDigits count n 0
  rw [Nat.zero_mul, Nat.zero_add, Nat.mod_eq_of_lt small] at read
  cases count with
  | zero => exact absurd positive (Nat.lt_irrefl 0)
  | succ count => 
      rw [hexDigits_succ] at read ⊢
      exact read

theorem length_hexDigits (count n : Nat) : (hexDigits count n).length = count := by
  simp [hexDigits]

theorem oneLine_hexDigits (count n : Nat) : ∀ c ∈ hexDigits count n, isBreak c = false := by
  intro c hc
  obtain ⟨place, _, rfl⟩ := List.mem_map.mp hc
  exact isBreak_hexDigit _ (Nat.mod_lt _ (by decide))

/-- An escape by code point stands for its character. -/
theorem spells_code {letter : Char} {length : Nat} (h : escaped? letter = none)
    (h' : escapeLength? letter = some length) (solid : isGap letter = false)
    (positive : 0 < length) (small : c.toNat < 16 ^ length) :
    Spells '"' c ('\\' :: letter :: hexDigits length c.toNat) := by
  refine ⟨by rw [front_cons]; decide, fun part column rest goesOn line offset => ?_⟩
  have notBreak := isBreak_of_isGap solid
  have here : isGap '\\' = false := by decide
  have here' : isBreak '\\' = false := by decide
  have read := natural?_hexDigits positive small
  have count := length_hexDigits length c.toNat
  have oneLine := oneLine_hexDigits length c.toNat
  generalize hexDigits length c.toNat = digits at *
  subst count
  have valid : c.toNat.isValidChar := c.valid
  have enough : digits.length ≤ digits.length + rest.length + 1 := by omega
  have place : column + (digits.length + 1 + 1) = column + 1 + 1 + digits.length := by omega
  refine ⟨line, offset + '\\'.utf8Size + letter.utf8Size + byteLength digits, ?_⟩
  simp [quotedRunStep, goesOn, here, here', notBreak, escape, h, h', place, enough, read, valid,
    Cell.take_locateFrom oneLine, Scan.result_skipMany oneLine]

end Hexadecimal

/-- A character is read from what is written for it in double quotes. -/
theorem spells_double (notSpace : c ≠ ' ') : Spells '"' c (Written.escape c) := by
  unfold Written.escape
  split
  iterate 14 exact spells_escaped rfl (by decide)
  split
  · rename_i printable
    have oneLine : endsLine c = false := by
      unfold endsLine
      grind
    exact spells_itself (isGap_of_isPrintable printable notSpace oneLine) (by assumption)
      (by assumption)
  · have inRange : c.toNat < 2 ^ 32 := c.val.toNat_lt
    split
    · exact spells_code rfl rfl (by decide) (by decide) (by omega)
    · split
      · exact spells_code rfl rfl (by decide) (by decide) (by omega)
      · exact spells_code rfl rfl (by decide) (by decide) (by omega)

theorem flatMap_escape_spaces {gap : List Char} (onlySpaces : ∀ c ∈ gap, c = ' ') :
    gap.flatMap Written.escape = gap := by
  induction gap with
  | nil => rfl
  | cons c gap ih =>
      obtain ⟨rfl, others⟩ := List.forall_mem_cons.mp onlySpaces
      rw [List.flatMap_cons, ih others]
      rfl

/-- What stands between double quotes is read up to the closing quote. -/
theorem reads_doubleLoop (notFirst : column ≠ 0) (ends : front rest ≠ '"') (before : List Char) :
    Reads (Scan.iterate (quotedStep '"') ⟨before, .none, false⟩) column
      (text.flatMap Written.escape ++ '"' :: rest) ⟨text.reverse ++ before, .none, true⟩
      (column + (text.flatMap Written.escape).length + 1) rest := by
  -- along the runs: the spaces behind each are joined to the text before the next is read
  induction segmented (fun c => decide (c = ' ')) text generalizing column before with
  | @last run solid =>
      have spells : ∀ c ∈ run, Spells '"' c (Written.escape c) :=
        fun c hc => spells_double (of_decide_eq_false (solid c hc))
      exact reads_closingQuote spells notFirst (.inr rfl) ends
  | @more run gap text solid nonempty between maximal _ ih =>
      have spells : ∀ c ∈ run, Spells '"' c (Written.escape c) :=
        fun c hc => spells_double (of_decide_eq_false (solid c hc))
      have onlySpaces : ∀ c ∈ gap, c = ' ' := fun c hc => of_decide_eq_true (between c hc)
      have frontSolid : isGap (front (text.flatMap Written.escape ++ '"' :: rest)) = false := by
        cases text with
        | nil => rw [List.flatMap_nil, List.nil_append, front_cons]; decide
        | cons c text =>
            have h := @spells_double c (of_decide_eq_false (maximal c rfl))
            obtain ⟨d, others, same⟩ := h.exists_cons
            have solid := h.solid
            rw [same] at solid
            rw [List.flatMap_cons, same]
            exact solid
      have read := @Gap.reads_spaces (column + (run.flatMap Written.escape).length) _ gap 0
        onlySpaces (isBlank_of_isGap frontSolid) (isBreak_of_isGap frontSolid)
      have frontGap : front (gap ++ (text.flatMap Written.escape ++ '"' :: rest)) = ' ' := by
        obtain ⟨c, others, rfl⟩ := List.exists_cons_of_ne_nil nonempty
        exact onlySpaces c List.mem_cons_self
      have first := @reads_quotedStep column '"' run _ _ _ before _ _ spells notFirst
        (by rw [frontGap]; decide) (by rw [frontGap]; rfl) read
      have later := @ih (column + (run.flatMap Written.escape).length + gap.length) (by omega)
        (gap.reverse ++ (run.reverse ++ before))
      simp only [List.flatMap_append, flatMap_escape_spaces onlySpaces, List.reverse_append,
        List.append_assoc, List.length_append, ← Nat.add_assoc] at first later ⊢
      have := List.length_pos_iff.mpr nonempty
      exact .iterate_of_some first (by simp; omega) later

/-- A text in double quotes is read from where it stands. -/
theorem reads_doubleQuoted (ends : front rest ≠ '"') :
    Reads quoted column (Written.doubleQuoted text ++ rest) (String.ofList text)
      (column + (Written.doubleQuoted text).length) rest := by
  have inside := @reads_doubleLoop (column + 1) text rest (Nat.succ_ne_zero column) ends []
  rw [quoted_eq, Written.doubleQuoted]
  intro line offset
  obtain ⟨line', offset', read⟩ := inside line (offset + '"'.utf8Size)
  refine ⟨line', offset', ?_⟩
  have place : column + ((text.flatMap Written.escape).length + 1 + 1) =
      column + 1 + (text.flatMap Written.escape).length + 1 := by omega
  simp [Part.start, read, isBreak, place, -List.length_flatMap]

section Single

open Written (indentLines)

variable {indent : Nat}

/-- A part of a line stays as it is. -/
theorem indentLines_run (oneLine : ∀ c ∈ run, endsLine c = false) :
    indentLines indent false (run ++ rest) = run ++ indentLines indent false rest := by
  induction run with
  | nil => rfl
  | cons c run ih =>
      rw [List.forall_mem_cons] at oneLine
      rw [List.cons_append, indentLines, oneLine.1, ih oneLine.2]
      rfl

/-- Behind line ends the next line is indented. -/
theorem indentLines_breaks {breaks : List Char} (onlyBreaks : ∀ c ∈ breaks, endsLine c = true)
    (oneLine : endsLine c = false) :
    indentLines indent true (breaks ++ c :: rest) =
      breaks ++ (List.replicate indent ' ' ++ indentLines indent false (c :: rest)) := by
  induction breaks with
  | nil => simp [indentLines, oneLine]
  | cons d breaks ih =>
      rw [List.forall_mem_cons] at onlyBreaks
      rw [List.cons_append, indentLines, onlyBreaks.1, if_pos rfl, ih onlyBreaks.2]
      rfl

/-- A quote is doubled. -/
def double (c : Char) : List Char := if c = '\'' then ['\'', '\''] else [c]

/-- Whether a character is written between the runs of a text in single quotes. -/
def separates (c : Char) : Bool := c = ' ' || endsLine c

theorem isBlank_or_isBreak {c : Char} (h : separates c = true) :
    (isBlank c || isBreak c) = true := by
  rw [separates, Bool.or_eq_true, decide_eq_true_eq] at h
  rcases h with rfl | h
  · rfl
  · rw [isBreak_of_endsLine h, Bool.or_true]

/-- A space and a line end do not come in a row. -/
def Apart (a b : Char) : Prop :=
  ¬(a = ' ' ∧ endsLine b = true) ∧ ¬(endsLine a = true ∧ b = ' ')

/-- What a text in single quotes holds. -/
structure IsSingle (text : List Char) : Prop where
  printable : ∀ c ∈ text, Written.isPrintable c = true ∧ c ≠ '\n'
  apart : text.IsChain Apart

/-- Spaces and line ends do not meet in a gap. -/
theorem onlySpaces_or_onlyBreaks {gap : List Char} (between : ∀ c ∈ gap, separates c = true)
    (apart : gap.IsChain Apart) : (∀ c ∈ gap, c = ' ') ∨ ∀ c ∈ gap, endsLine c = true := by
  induction gap with
  | nil => exact .inl fun _ h => absurd h List.not_mem_nil
  | cons c gap ih =>
      obtain ⟨first, others⟩ := List.forall_mem_cons.mp between
      obtain ⟨next, apart⟩ := List.isChain_cons.mp apart
      have kind : c = ' ' ∨ endsLine c = true := by simpa [separates] using first
      cases gap with
      | nil => simpa using kind
      | cons d gap =>
          have := next d rfl
          unfold Apart at this
          have spaceIsNone : endsLine ' ' = false := by decide
          rcases ih others apart with all | all
          · left
            rw [List.forall_mem_cons]
            refine ⟨?_, all⟩
            have := all d List.mem_cons_self
            grind
          · right
            rw [List.forall_mem_cons]
            refine ⟨?_, all⟩
            have := all d List.mem_cons_self
            grind

theorem IsSingle.spells (h : IsSingle text) (member : ∀ c ∈ run, c ∈ text)
    (inside : ∀ c ∈ run, separates c = false) : ∀ c ∈ run, Spells '\'' c (double c) := by
  intro c hc
  have solid := inside c hc
  rw [separates, Bool.or_eq_false_iff] at solid
  exact spells_single (isGap_of_isPrintable (h.printable c (member c hc)).1
    (of_decide_eq_false solid.1) solid.2)

/-- What is written for a run stays on its line. -/
theorem oneLine_flatMap_double (inside : ∀ c ∈ run, separates c = false) :
    ∀ c ∈ run.flatMap double, endsLine c = false := by
  intro c hc
  obtain ⟨d, hd, member⟩ := List.mem_flatMap.mp hc
  have solid := inside d hd
  rw [separates, Bool.or_eq_false_iff] at solid
  unfold double at member
  split at member
  · have quote : c = '\'' := by simpa using member
    rw [quote]
    decide
  · have same : c = d := by simpa using member
    rw [same]
    exact solid.2

theorem flatMap_double_gap {gap : List Char} (between : ∀ c ∈ gap, separates c = true) :
    gap.flatMap double = gap := by
  induction gap with
  | nil => rfl
  | cons c gap ih =>
      rw [List.forall_mem_cons] at between
      have notQuote : c ≠ '\'' := by
        rintro rfl
        exact absurd between.1 (by decide)
      rw [List.flatMap_cons, ih between.2, double, if_neg notQuote]
      rfl

theorem joinTo_breaks {b : Char} (notNewline : b ≠ '\n') (breaks before : List Char) :
    (Gap.mk [] (some [b]) breaks).joinTo before = breaks ++ b :: before := by
  unfold Gap.joinTo
  split
  · rename_i same
    cases same
  · rename_i same
    cases same
    exact absurd rfl notNewline
  · rename_i separator _ same
    cases same
    simp

/-- What is written for a gap is read as that gap. -/
structure Separates (gap separator : List Char) : Prop where
  begins : ∃ c rest, separator = c :: rest ∧ separates c = true
  reads : ∀ column rest, column ≠ 0 → isGap (front rest) = false → ∃ read column', column' ≠ 0 ∧
    Reads (Gap.none.read 0) column (separator ++ rest) read column' rest ∧
    ∀ before, read.joinTo before = gap.reverse ++ before

/-- A gap in single quotes is written as it is, and with the indentation of the next line behind it
if it is made of line ends. -/
theorem exists_separator {gap : List Char} (nonempty : gap ≠ [])
    (between : ∀ c ∈ gap, separates c = true) (apart : gap.IsChain Apart)
    (noNewline : ∀ c ∈ gap, c ≠ '\n') (indented : indent ≠ 0) (oneLine : endsLine c = false) :
    ∃ separator, Separates gap separator ∧
      indentLines indent false (gap ++ c :: rest) =
        separator ++ indentLines indent false (c :: rest) := by
  obtain ⟨first, others, rfl⟩ := List.exists_cons_of_ne_nil nonempty
  have begins : separates first = true := between first List.mem_cons_self
  rcases onlySpaces_or_onlyBreaks between apart with onlySpaces | onlyBreaks
  · have oneLineGap : ∀ c ∈ first :: others, endsLine c = false := by
      intro c hc
      rw [onlySpaces c hc]
      decide
    refine ⟨first :: others, ⟨⟨first, others, rfl, begins⟩, ?_⟩, indentLines_run oneLineGap⟩
    intro column rest notFirst solid
    exact ⟨_, _, by omega, Gap.reads_spaces 0 onlySpaces (isBlank_of_isGap solid)
      (isBreak_of_isGap solid), fun before => rfl⟩
  · obtain ⟨firstBreak, otherBreaks⟩ := List.forall_mem_cons.mp onlyBreaks
    refine ⟨first :: (others ++ List.replicate indent ' '), ⟨⟨first, _, rfl, begins⟩, ?_⟩, ?_⟩
    · intro column rest _ solid
      have read := @Gap.reads_breaks column rest first others (List.replicate indent ' ') 0
        firstBreak otherBreaks (by simp) (isBlank_of_isGap solid) (isBreak_of_isGap solid)
      rw [List.length_replicate] at read
      refine ⟨_, indent, indented, by simpa using read, fun before => ?_⟩
      rw [joinTo_breaks (noNewline first List.mem_cons_self)]
      simp
    · rw [List.cons_append, indentLines, firstBreak, if_pos rfl,
        indentLines_breaks otherBreaks oneLine]
      simp

/-- What is written behind a gap begins with a character of a line. -/
theorem exists_front_double (h : IsSingle text) (maximal : ∀ c ∈ text.head?, separates c = false) :
    ∃ c rest, text.flatMap double ++ ['\''] = c :: rest ∧ isGap c = false ∧ endsLine c = false := by
  cases text with
  | nil => exact ⟨'\'', [], rfl, by decide, by decide⟩
  | cons c text =>
      have inside : separates c = false := maximal c rfl
      have spelled : Spells '\'' c (double c) :=
        @IsSingle.spells (c :: text) [c] h (by simp) (by simpa using inside) c List.mem_cons_self
      obtain ⟨d, others, same⟩ := spelled.exists_cons
      have solid := spelled.solid
      rw [same, front_cons] at solid
      refine ⟨d, others ++ (text.flatMap double ++ ['\'']), by simp [same], solid, ?_⟩
      exact @oneLine_flatMap_double [c] (by simpa using inside) d (by simp [same])

/-- What stands between single quotes is read up to the closing quote. -/
theorem reads_singleLoop (h : IsSingle text) (indented : indent ≠ 0) (notFirst : column ≠ 0)
    (ends : front rest ≠ '\'') (before : List Char) :
    ∃ column', Reads (Scan.iterate (quotedStep '\'') ⟨before, .none, false⟩) column
      (indentLines indent false (text.flatMap double ++ ['\'']) ++ rest)
      ⟨text.reverse ++ before, .none, true⟩ column' rest := by
  -- along the runs: what is written for the gap behind each joins that gap to the text
  induction segmented separates text generalizing column before with
  | @last run inside =>
      have spells := h.spells (fun _ hc => hc) inside
      have written : indentLines indent false (run.flatMap double ++ ['\'']) ++ rest =
          run.flatMap double ++ '\'' :: rest := by
        rw [indentLines_run (oneLine_flatMap_double inside), List.append_assoc]
        rfl
      rw [written]
      exact ⟨_, reads_closingQuote spells notFirst (.inl rfl) ends⟩
  | @more run gap text inside nonempty between maximal _ ih =>
      have spells := h.spells (fun _ hc => List.mem_append_left _ hc) inside
      obtain ⟨_, later, _⟩ := List.isChain_append.mp h.apart
      obtain ⟨gapApart, textApart, _⟩ := List.isChain_append.mp later
      have isSingle : IsSingle text := ⟨fun c hc => h.printable c (by simp [hc]), textApart⟩
      have noNewline : ∀ c ∈ gap, c ≠ '\n' := fun c hc => (h.printable c (by simp [hc])).2
      obtain ⟨c, others, same, solid, oneLine⟩ := exists_front_double isSingle maximal
      obtain ⟨separator, ⟨⟨b, behind, begins, separates⟩, reads⟩, written⟩ :=
        @exists_separator c others indent gap nonempty between gapApart noNewline indented oneLine
      have split : (run ++ (gap ++ text)).flatMap double ++ ['\''] =
          run.flatMap double ++ (gap ++ c :: others) := by
        rw [List.flatMap_append, List.flatMap_append, flatMap_double_gap between, ← same]
        simp
      have frontRest : front (indentLines indent false (c :: others) ++ rest) = c := by
        rw [indentLines, oneLine]
        rfl
      obtain ⟨read, column', notFirst', reads, joins⟩ :=
        reads (column + (run.flatMap double).length)
          (indentLines indent false (c :: others) ++ rest) (by omega)
          (by rw [frontRest]; exact solid)
      subst begins
      have step := @reads_quotedStep column '\'' run _ _ _ before _ _ spells notFirst
        (by rintro rfl; exact absurd separates (by decide))
        (by exact isBlank_or_isBreak separates) reads
      obtain ⟨column'', later⟩ :=
        @ih column' isSingle notFirst' (gap.reverse ++ (run.reverse ++ before))
      rw [same] at later
      rw [joins] at step
      rw [split, indentLines_run (oneLine_flatMap_double inside), written]
      simp only [List.append_assoc, List.reverse_append]
      exact ⟨column'', .iterate_of_some step (by simp; omega) later⟩

/-- A text in single quotes is read from where it stands. -/
theorem reads_singleQuoted (h : IsSingle text) (indented : indent ≠ 0) (ends : front rest ≠ '\'') :
    ∃ column', Reads quoted column (Written.singleQuoted indent text ++ rest) (String.ofList text)
      column' rest := by
  obtain ⟨column', inside⟩ :=
    @reads_singleLoop (column + 1) text rest indent h indented (Nat.succ_ne_zero column) ends []
  refine ⟨column', ?_⟩
  rw [quoted_eq]
  intro line offset
  obtain ⟨line', offset', read⟩ := inside line (offset + '\''.utf8Size)
  refine ⟨line', offset', ?_⟩
  have written : Written.singleQuoted indent text =
      '\'' :: indentLines indent false (text.flatMap double ++ ['\'']) := rfl
  rw [written, List.cons_append]
  simp [Part.start, read, isBreak]

end Single

end ScalarText

end TypeDictionary.Yaml
