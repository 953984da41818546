import TypeDictionary.Proofs.QuotedScalar

/-!
# Literal blocks

A text in a literal block falls into line ends and lines, each line with a line end and perhaps
empty lines behind it. What is read of them holds the text with all its line ends, and the chomping
in the header says which of the last ones belong to it. The indentation is the one in the header or
that of the first line, and a line with less of it ends the block.
-/

namespace TypeDictionary.Yaml

open Cell (locateFrom)
open Scan (Reads)
open Text (Reader)
open Text.Reader (result)
open Written (endsLine indentLines)

namespace ScalarText

variable {column indent : Nat} {text rest breaks spaces : List Char}

/-- One character of the empty lines and the indentation in a block. -/
def blockBreaksStep (indent : Option Nat) : List Char × Nat → Scan (Option (List Char × Nat)) :=
  fun (breaks, reached) => do
    let inside (cell : Cell) : Bool :=
      match indent with
      | none => true
      | some indent => decide (cell.column < indent)
    let cell ← Scan.here
    if cell.char = ' ' ∧ inside cell then
      Scan.skip
      return some (breaks, max reached (cell.column + 1))
    else if cell.char = '\t' ∧ inside cell then Scan.fail
    else if isBreak cell.char then
      let separator ← Scan.lineBreak
      return some (separator :: breaks, reached)
    else return none

theorem blockBreaks_eq (indent : Option Nat) :
    blockBreaks indent = Scan.iterate (blockBreaksStep indent) ([], 0) := rfl

/-- Where the indentation of a line ends: before a character that is none of it, or at the column
where the lines of the block begin. -/
structure EndsIndentation (indent : Option Nat) (column : Nat) (rest : List Char) : Prop where
  notTab : front rest ≠ '\t'
  notBreak : isBreak (front rest) = false
  stops : front rest ≠ ' ' ∨ indent = some column

theorem reads_indentation {limit : Option Nat} {before : List Char} {reached : Nat}
    (onlySpaces : ∀ c ∈ spaces, c = ' ')
    (inside : ∀ indent ∈ limit, column + spaces.length ≤ indent)
    (ends : EndsIndentation limit (column + spaces.length) rest) (known : column ≤ reached) :
    Reads (Scan.iterate (blockBreaksStep limit) (before, reached)) column (spaces ++ rest)
      (before, max reached (column + spaces.length)) (column + spaces.length) rest := by
  induction spaces generalizing column reached with
  | nil =>
      obtain ⟨notTab, notBreak, stops⟩ := ends
      have same : max reached column = reached := Nat.max_eq_left known
      simp only [List.length_nil, Nat.add_zero, List.nil_append, same] at *
      refine .iterate_of_none fun line offset => ⟨line, offset, ?_⟩
      rcases stops with notSpace | rfl
      · simp [blockBreaksStep, notTab, notBreak, notSpace]
      · simp [blockBreaksStep, notTab, notBreak]
  | cons c spaces ih =>
      obtain ⟨rfl, others⟩ := List.forall_mem_cons.mp onlySpaces
      have place : column + (' ' :: spaces).length = column + 1 + spaces.length := by
        rw [List.length_cons]
        omega
      rw [place] at inside ends ⊢
      have later := @ih (column + 1) (max reached (column + 1)) others inside ends
        (Nat.le_max_right ..)
      have most : max (max reached (column + 1)) (column + 1 + spaces.length) =
          max reached (column + 1 + spaces.length) := by omega
      rw [most] at later
      refine .iterate_of_some (fun line offset => ⟨line, offset + ' '.utf8Size, ?_⟩) (by simp) later
      cases limit with
      | none => simp [blockBreaksStep, isBreak]
      | some indent =>
          have : column < indent := by
            have := inside indent rfl
            omega
          simp [blockBreaksStep, isBreak, this]

/-- Empty lines and the indentation of the line behind them. -/
theorem reads_blockBreaks {limit : Option Nat} (onlyBreaks : ∀ c ∈ breaks, endsLine c = true)
    (onlySpaces : ∀ c ∈ spaces, c = ' ') (inside : ∀ indent ∈ limit, spaces.length ≤ indent)
    (ends : EndsIndentation limit spaces.length rest) :
    Reads (blockBreaks limit) 0 (breaks ++ (spaces ++ rest)) (breaks.reverse, spaces.length)
      spaces.length rest := by
  have gathered (before : List Char) :
      Reads (Scan.iterate (blockBreaksStep limit) (before, 0)) 0 (breaks ++ (spaces ++ rest))
        (breaks.reverse ++ before, spaces.length) spaces.length rest := by
    induction breaks generalizing before with
    | nil =>
        have read := @reads_indentation 0 rest spaces limit before 0 onlySpaces
          (by simpa using inside) (by simpa using ends) (Nat.le_refl 0)
        simpa using read
    | cons c breaks ih =>
        obtain ⟨lineEnd, others⟩ := List.forall_mem_cons.mp onlyBreaks
        have later := ih others (c :: before)
        rw [List.reverse_cons, List.append_assoc]
        refine .iterate_of_some (fun line offset => ⟨line + 1, offset + c.utf8Size, ?_⟩)
          (by simp) later
        have notSpace : c ≠ ' ' := by rintro rfl; exact absurd lineEnd (by decide)
        have notTab : c ≠ '\t' := by rintro rfl; exact absurd lineEnd (by decide)
        simp [blockBreaksStep, notSpace, notTab, isBreak_of_endsLine, lineEnd]
  have read := gathered []
  rw [List.append_nil] at read
  rw [blockBreaks_eq]
  exact read

/-- One line of a block, its line end, and the empty lines and the indentation behind it. -/
def blockStep (folded : Bool) (indent : Nat) (block : Block) : Scan (Option Block) := do
  let cell ← Scan.here
  if cell.column ≠ indent ∨ cell.char = theEnd then return none
  let indented := isBlank cell.char
  let joined :=
    if folded ∧ block.lineEnd = ['\n'] ∧ !block.indented ∧ !indented then
      if block.emptyLines.isEmpty then [' '] else []
    else block.lineEnd
  let line ← Scan.takeWhile fun c => !isLineEnd c
  let lineEnd ← if isBreak (← Scan.here).char then pure [← Scan.lineBreak] else pure []
  let (emptyLines, _) ← blockBreaks (some indent)
  return some
    ⟨line.reverse ++ block.emptyLines ++ joined ++ block.text, lineEnd, emptyLines, indented⟩

/-- What the chomping leaves of a block, last character first. -/
def chomped (chomping : Chomping) (block : Block) : List Char :=
  match chomping with
  | .strip => block.text
  | .clip => block.lineEnd ++ block.text
  | .keep => block.emptyLines ++ block.lineEnd ++ block.text

theorem block_eq (folded : Bool) (parent : Int) :
    block folded parent = (do
      Scan.skip
      let (chomping, increment) ← blockHeader
      let given := increment.map fun n => (max parent 0).toNat + n
      let (breaks, reached) ← blockBreaks given
      let indent := given.getD (max (max reached (parent + 1).toNat) 1)
      let block ← Scan.iterate (blockStep folded indent) ⟨[], [], breaks, false⟩
      let tail := match chomping with
        | .strip => []
        | .clip => block.lineEnd
        | .keep => block.emptyLines ++ block.lineEnd
      return String.ofList (tail ++ block.text).reverse) := rfl

/-- Whether a character may stand in a line of a block. -/
def InLine (c : Char) : Prop := Written.isPrintable c = true ∧ endsLine c = false

theorem InLine.isLineEnd {c : Char} (h : InLine c) : isLineEnd c = false := by
  by_cases space : c = ' '
  · rw [space]
    decide
  · have solid := isGap_of_isPrintable h.1 space h.2
    unfold isGap at solid
    grind

/-- Empty lines and the whole indentation of the line behind them. -/
theorem reads_beforeLine {limit : Option Nat} (onlyBreaks : ∀ c ∈ breaks, endsLine c = true)
    (inside : ∀ column ∈ limit, indent ≤ column) (ends : EndsIndentation limit indent rest) :
    Reads (blockBreaks limit) 0 (breaks ++ (List.replicate indent ' ' ++ rest))
      (breaks.reverse, indent) indent rest := by
  have read := @reads_blockBreaks rest breaks (List.replicate indent ' ') limit onlyBreaks
    fun c hc => List.eq_of_mem_replicate hc
  rw [List.length_replicate] at read
  exact read inside ends

theorem reads_blockStep {c b : Char} {line : List Char} {block : Block}
    (inLine : ∀ d ∈ c :: line, InLine d) (lineEnd : endsLine b = true)
    (onlyBreaks : ∀ c ∈ breaks, endsLine c = true) (onlySpaces : ∀ c ∈ spaces, c = ' ')
    (inside : spaces.length ≤ indent) (ends : EndsIndentation (some indent) spaces.length rest) :
    Reads (blockStep false indent block) indent
      (c :: line ++ (b :: (breaks ++ (spaces ++ rest))))
      (some ⟨(c :: line).reverse ++ block.emptyLines ++ block.lineEnd ++ block.text, [b],
        breaks.reverse, isBlank c⟩) spaces.length rest := by
  have notEnd : c ≠ theEnd := by
    rintro rfl
    exact absurd (inLine _ List.mem_cons_self).isLineEnd (by decide)
  have kept : ∀ d ∈ c :: line, (!isLineEnd d) = true ∧ isBreak d = false := by
    intro d hd
    have := (inLine d hd).isLineEnd
    unfold isLineEnd at this ⊢
    grind
  have stops : (!isLineEnd (front (b :: (breaks ++ (spaces ++ rest))))) = false := by
    simp [isLineEnd, isBreak_of_endsLine, lineEnd]
  intro row offset
  have taken := @Scan.result_takeWhile row indent offset (c :: line)
    (b :: (breaks ++ (spaces ++ rest))) _ kept stops
  obtain ⟨row', offset', read⟩ := @reads_blockBreaks rest breaks spaces (some indent) onlyBreaks
    onlySpaces (by simpa using inside) ends (row + 1) (offset + byteLength (c :: line) + b.utf8Size)
  refine ⟨row', offset', ?_⟩
  rw [List.cons_append] at taken ⊢
  simp [blockStep, notEnd, taken, lineEnd, isBreak_of_endsLine, read]

/-- Lines with their line ends and empty lines behind them. -/
inductive Lined : List Char → Prop
  | last {c b : Char} {line breaks : List Char} (inLine : ∀ d ∈ c :: line, InLine d)
      (lineEnd : endsLine b = true) (onlyBreaks : ∀ c ∈ breaks, endsLine c = true) :
      Lined (c :: line ++ b :: breaks)
  | more {c b : Char} {line breaks text : List Char} (inLine : ∀ d ∈ c :: line, InLine d)
      (lineEnd : endsLine b = true) (onlyBreaks : ∀ c ∈ breaks, endsLine c = true)
      (others : Lined text) : Lined (c :: line ++ b :: (breaks ++ text))

theorem Lined.front (h : Lined text) : ∃ c rest, text = c :: rest ∧ InLine c := by
  cases h with
  | last inLine => exact ⟨_, _, rfl, inLine _ List.mem_cons_self⟩
  | more inLine => exact ⟨_, _, rfl, inLine _ List.mem_cons_self⟩

/-- The lines of a block have been read: what there was before them and what they hold is in the
text, the last line end and the empty lines behind it. -/
structure Holds (read : List Char) (block : Block) : Prop where
  all : block.emptyLines ++ (block.lineEnd ++ block.text) = read.reverse
  lineEnd : block.lineEnd.length = 1
  breaks : ∀ c ∈ block.emptyLines ++ block.lineEnd, endsLine c = true
  text : ∀ c ∈ block.text.head?, endsLine c = false

theorem indentLines_onlyBreaks {after : Bool} (onlyBreaks : ∀ c ∈ breaks, endsLine c = true) :
    indentLines indent after breaks = breaks := by
  induction breaks generalizing after with
  | nil => rfl
  | cons c breaks ih =>
      rw [List.forall_mem_cons] at onlyBreaks
      rw [indentLines, if_pos onlyBreaks.1, ih onlyBreaks.2]

theorem indentLines_line {c b : Char} {line : List Char} (inLine : ∀ d ∈ c :: line, InLine d)
    (lineEnd : endsLine b = true) (others : List Char) :
    indentLines indent false (c :: line ++ b :: others) =
      c :: line ++ b :: indentLines indent true others := by
  rw [indentLines_run fun d hd => (inLine d hd).2, indentLines, if_pos lineEnd]

theorem EndsIndentation.of_front {limit : Option Nat} (blank : isBlank (front rest) = false)
    (ends : isBreak (front rest) = false) : EndsIndentation limit column rest := by
  refine ⟨?_, ends, .inl ?_⟩ <;> exact fun same => absurd blank (by rw [same]; decide)

theorem EndsIndentation.of_inLine {limit : Option Nat} {c : Char} (h : InLine c)
    (stops : c ≠ ' ' ∨ limit = some column) : EndsIndentation limit column (c :: rest) := by
  have solid := h.isLineEnd
  refine ⟨fun same => ?_, ?_, stops⟩
  · rw [front_cons] at same
    subst same
    exact absurd h.1 (by decide)
  · unfold isLineEnd at solid
    rw [front_cons]
    grind

/-- One more line is held. -/
theorem Holds.line {c b : Char} {line before : List Char} {block : Block}
    (held : block.emptyLines ++ (block.lineEnd ++ block.text) = before.reverse)
    (inLine : ∀ d ∈ c :: line, InLine d) (lineEnd : endsLine b = true)
    (onlyBreaks : ∀ c ∈ breaks, endsLine c = true) :
    Holds (before ++ (c :: line ++ b :: breaks))
      ⟨(c :: line).reverse ++ block.emptyLines ++ block.lineEnd ++ block.text, [b],
        breaks.reverse, isBlank c⟩ where
  all := by simp [held]
  lineEnd := rfl
  breaks := by
    intro d hd
    rcases List.mem_append.mp hd with hd | hd
    · exact onlyBreaks d (List.mem_reverse.mp hd)
    · rw [List.mem_singleton.mp hd]
      exact lineEnd
  text := by
    intro d hd
    obtain ⟨last, others, same⟩ := List.exists_cons_of_ne_nil (List.reverse_ne_nil_iff.mpr
      (List.cons_ne_nil c line))
    rw [same] at hd
    obtain rfl : last = d := Option.some.inj hd
    exact (inLine last (List.mem_reverse.mp (same ▸ List.mem_cons_self))).2

/-- The lines of a block are read up to a line that is not indented as far. -/
theorem reads_blockLoop (h : Lined text) (onlySpaces : ∀ c ∈ spaces, c = ' ')
    (outside : spaces.length < indent) (blank : isBlank (front rest) = false)
    (ends : isBreak (front rest) = false)
    {before : List Char} {block : Block}
    (held : block.emptyLines ++ (block.lineEnd ++ block.text) = before.reverse) :
    ∃ final, Reads (Scan.iterate (blockStep false indent) block) indent
      (indentLines indent false text ++ (spaces ++ rest)) final spaces.length rest ∧
      Holds (before ++ text) final := by
  -- along the lines: each takes the line end and the empty lines before it into the text
  induction h generalizing before block with
  | @last c b line breaks inLine lineEnd onlyBreaks =>
      have step := @reads_blockStep indent rest breaks spaces c b line block inLine lineEnd
        onlyBreaks onlySpaces (by omega) (.of_front blank ends)
      refine ⟨_, ?_, Holds.line held inLine lineEnd onlyBreaks⟩
      rw [indentLines_line inLine lineEnd, indentLines_onlyBreaks onlyBreaks, List.append_assoc,
        List.cons_append]
      refine .iterate_of_some step (by simp; omega) ?_
      refine .iterate_of_none fun row offset => ⟨row, offset, ?_⟩
      have elsewhere : spaces.length ≠ indent := by omega
      simp [blockStep, elsewhere]
  | @more c b line breaks text inLine lineEnd onlyBreaks others ih =>
      obtain ⟨d, tail, same, first⟩ := others.front
      have begins : EndsIndentation (some indent) (List.replicate indent ' ').length
          (indentLines indent false text ++ (spaces ++ rest)) := by
        rw [List.length_replicate, same, indentLines, if_neg (by simp [first.2])]
        exact .of_inLine first (.inr rfl)
      have step := @reads_blockStep indent _ breaks _ c b line block inLine lineEnd onlyBreaks
        (fun e he => List.eq_of_mem_replicate he) (by simp) begins
      obtain ⟨final, read, holds⟩ := ih (Holds.line held inLine lineEnd onlyBreaks).all
      have ordered : before ++ (c :: line ++ b :: (breaks ++ text)) =
          before ++ (c :: line ++ b :: breaks) ++ text := by simp
      refine ⟨final, ?_, by rw [ordered]; exact holds⟩
      rw [indentLines_line inLine lineEnd, same, indentLines_breaks onlyBreaks first.2, ← same]
      rw [List.length_replicate] at step
      simp only [List.append_assoc, List.cons_append] at step read ⊢
      exact .iterate_of_some step (by simp; omega) read

/-- How a chomping is written. -/
def Chomping.written : Chomping → List Char
  | .strip => ['-']
  | .clip => []
  | .keep => ['+']

/-- How the indentation of a block is written, if it is. -/
def writtenIndentation (marked : Bool) : List Char := if marked then ['2'] else []

theorem reads_blockHeader (marked : Bool) (chomping : Chomping) :
    Reads blockHeader column (writtenIndentation marked ++ chomping.written ++ '\n' :: rest)
      (chomping, if marked then some 2 else none) 0 rest := by
  intro line offset
  refine ⟨line + 1,
    offset + byteLength (writtenIndentation marked ++ chomping.written) + '\n'.utf8Size, ?_⟩
  have taken := @Scan.result_takeWhile line column offset
    (writtenIndentation marked ++ chomping.written) ('\n' :: rest)
    (fun c => c = '-' ∨ c = '+' ∨ c.isDigit)
    (by cases marked <;> cases chomping <;> simp [writtenIndentation, Chomping.written, isBreak])
    (by simp)
  have blanks (column offset : Nat) := @Scan.result_takeWhile line column offset [] ('\n' :: rest)
    isBlank (by simp) (by rw [front_cons]; decide)
  have lineEnd : endsLine '\n' = true := by decide
  have noBytes : byteLength [] = 0 := rfl
  have two : Text.Numeral.digit? 10 '2' = some 2 := by decide
  simp only [List.nil_append] at blanks
  rw [blockHeader, Reader.result_bind, taken, Reader.ok_bind]
  cases marked <;> cases chomping <;>
    simp [blanks, writtenIndentation, Chomping.written, Chomping.ofIndicator?, isLineEnd, lineEnd,
      isBreak_of_endsLine, noBytes, two]

/-- A text that ends with a line end is line ends and then lines. -/
theorem exists_lines (printable : ∀ c ∈ text, Written.isPrintable c = true)
    (ends : ∀ c ∈ text.getLast?, endsLine c = true) :
    ∃ breaks lines, text = breaks ++ lines ∧ (∀ c ∈ breaks, endsLine c = true) ∧
      (lines = [] ∨ Lined lines) := by
  induction segmented endsLine text with
  | @last run inside =>
      refine ⟨[], [], ?_, by simp, .inl rfl⟩
      cases last : run.getLast? with
      | none => exact List.getLast?_eq_none_iff.mp last
      | some c => exact absurd (ends c last) (by simp [inside c (List.mem_of_getLast? last)])
  | @more run gap rest inside nonempty between maximal others ih =>
      simp only [List.forall_mem_append] at printable
      obtain ⟨breaks, lines, rfl, onlyBreaks, lined⟩ := ih printable.2.2 fun c hc => ends c (by
        rw [Option.mem_def] at hc
        rw [Option.mem_def, List.getLast?_append, List.getLast?_append, hc, Option.some_or,
          Option.some_or])
      obtain rfl : breaks = [] := by
        cases breaks with
        | nil => rfl
        | cons c breaks => exact absurd (onlyBreaks c List.mem_cons_self) (by simp [maximal c rfl])
      rw [List.nil_append]
      obtain ⟨b, breaks, rfl⟩ := List.exists_cons_of_ne_nil nonempty
      cases run with
      | nil => exact ⟨b :: breaks, lines, rfl, between, lined⟩
      | cons c line =>
          have inLine : ∀ d ∈ c :: line, InLine d := fun d hd => ⟨printable.1 d hd, inside d hd⟩
          rw [List.forall_mem_cons] at between
          refine ⟨[], _, rfl, by simp, .inr ?_⟩
          rcases lined with rfl | lined
          · rw [List.append_nil]
            exact .last inLine between.1 between.2
          · exact .more inLine between.1 between.2 lined

theorem getLast?_indentLines {after : Bool} :
    (indentLines indent after text).getLast? = text.getLast? := by
  induction text generalizing after with
  | nil => rfl
  | cons c text ih =>
      unfold indentLines
      split <;> simp [List.getLast?_cons, ih]

theorem indentLines_append_newline {after : Bool} :
    indentLines indent after (text ++ ['\n']) = indentLines indent after text ++ ['\n'] := by
  induction text generalizing after with
  | nil => rfl
  | cons c text ih =>
      rw [List.cons_append, indentLines, indentLines]
      split <;> simp [ih]

/-- The line end behind a literal block is that behind its text. -/
theorem endLine_literalBlock (nonempty : text ≠ []) :
    Node.endLine (Written.literalBlock indent text) =
      Written.blockHeader text ++ '\n' :: indentLines indent true (Node.endLine text) := by
  obtain ⟨last, same⟩ : ∃ last, text.getLast? = some last :=
    ⟨_, List.getLast?_eq_some_getLast nonempty⟩
  unfold Node.endLine Written.literalBlock
  split <;> rename_i ends <;>
    simp only [List.getLast?_append, List.getLast?_cons, getLast?_indentLines, same,
      Option.getD_some, Option.some_or, Option.any_some] at ends <;>
    simp [same, ends, indentLines_append_newline]

/-- Without empty lines at its end, a block holds one line end and the text before it. -/
theorem Holds.single {b : Char} {read others : List Char} {block : Block} (h : Holds read block)
    (same : read.reverse = b :: others) (single : ∀ c ∈ others.head?, endsLine c = false) :
    block.lineEnd = [b] ∧ block.text = others := by
  obtain ⟨e, lineEnd⟩ := List.length_eq_one_iff.mp h.lineEnd
  have all := h.all
  have breaks := h.breaks
  rw [same] at all
  rw [lineEnd] at all breaks ⊢
  cases emptyLines : block.emptyLines with
  | nil =>
      rw [emptyLines] at all
      cases all
      exact ⟨rfl, rfl⟩
  | cons c emptyBefore =>
      rw [emptyLines] at all breaks
      obtain ⟨-, rfl⟩ := List.cons_eq_cons.mp all
      cases emptyBefore with
      | nil => exact absurd (breaks e (by simp)) (by simp [single e rfl])
      | cons d emptyBefore => exact absurd (breaks d (by simp)) (by simp [single d rfl])

/-- The chomping in the header of a block leaves of what has been read the text that it was written
for. -/
theorem exists_chomping (nonempty : text ≠ []) :
    ∃ chomping, Written.blockHeader text = '|' :: (writtenIndentation
        (text.head?.any fun c => c = ' ' || endsLine c) ++ chomping.written) ∧
      (∀ block, Holds (Node.endLine text) block → chomped chomping block = text.reverse) ∧
      ((∀ c ∈ text, endsLine c = true) → chomping = .keep ∧ Node.endLine text = text) := by
  obtain ⟨last, others, same⟩ :=
    List.exists_cons_of_ne_nil (List.reverse_ne_nil_iff.mpr nonempty)
  have atEnd : text.getLast? = some last := by rw [List.getLast?_eq_head?_reverse, same]; rfl
  have member : ∀ c ∈ last :: others, c ∈ text := by
    intro c hc
    rw [← List.mem_reverse, same]
    exact hc
  have kept (ends : endsLine last = true) : Node.endLine text = text := by
    simp [Node.endLine, atEnd, ends]
  have all (ends : endsLine last = true) (block : Block) (holds : Holds (Node.endLine text) block) :
      chomped .keep block = text.reverse := by
    rw [kept ends] at holds
    rw [← holds.all]
    exact List.append_assoc ..
  unfold Written.blockHeader
  rw [same]
  cases ends : endsLine last with
  | false =>
      -- the only line end behind the text is the one added to it
      refine ⟨.strip, ?_, fun block holds => ?_, fun allBreaks => ?_⟩
      · cases others <;> simp [ends, writtenIndentation, Chomping.written]
      · have added : (Node.endLine text).reverse = '\n' :: last :: others := by
          simp [Node.endLine, atEnd, ends, same]
        exact (holds.single added (by simpa using ends)).2
      · exact absurd (allBreaks last (member last List.mem_cons_self)) (by simp [ends])
  | true =>
      cases others with
      | nil =>
          refine ⟨.keep, ?_, same ▸ all ends, fun _ => ⟨rfl, kept ends⟩⟩
          simp [ends, writtenIndentation, Chomping.written]
      | cons d others =>
          cases empty : endsLine d with
          | true =>
              refine ⟨.keep, ?_, same ▸ all ends, fun _ => ⟨rfl, kept ends⟩⟩
              simp [ends, empty, writtenIndentation, Chomping.written]
          | false =>
              -- one line end belongs to the text, and no empty line is behind it
              refine ⟨.clip, ?_, fun block holds => ?_, fun allBreaks => ?_⟩
              · simp [ends, empty, writtenIndentation, Chomping.written]
              · rw [kept ends] at holds
                obtain ⟨lineEnd, held⟩ := holds.single same (by simpa using empty)
                rw [chomped, lineEnd, held]
                rfl
              · exact absurd (allBreaks d (member d (by simp))) (by simp [empty])

/-- A block from what is read of its parts. -/
theorem reads_block_of {parent reached column' column'' : Nat} {marked : Bool} {chomping : Chomping}
    {written body : List Char} {final : Block}
    (begun : Reads (blockBreaks (if marked then some (parent + 2) else none)) 0 written
      (breaks, reached) column' body)
    (lines : Reads (Scan.iterate (blockStep false
      (if marked then parent + 2 else max (max reached (parent + 1)) 1)) ⟨[], [], breaks, false⟩)
      column' body final column'' rest) :
    Reads (block false parent) column
      ('|' :: (writtenIndentation marked ++ chomping.written ++ '\n' :: written))
      (String.ofList (chomped chomping final).reverse) column'' rest := by
  have first : Reads Scan.skip column
      ('|' :: (writtenIndentation marked ++ chomping.written ++ '\n' :: written)) () (column + 1)
      (writtenIndentation marked ++ chomping.written ++ '\n' :: written) :=
    fun line offset => ⟨line, _, Scan.result_skip (by decide)⟩
  have given : (if marked = true then some 2 else none).map
      (fun n => (max (parent : Int) 0).toNat + n) = if marked then some (parent + 2) else none := by
    cases marked <;> simp
  have indent : (if marked then some (parent + 2) else none).getD
        (max (max reached ((parent : Int) + 1).toNat) 1) =
      if marked then parent + 2 else max (max reached (parent + 1)) 1 := by
    cases marked <;> simp
  rw [block_eq]
  refine first.bind ((reads_blockHeader marked chomping).bind ?_)
  dsimp only
  rw [given]
  refine begun.bind ?_
  dsimp only
  rw [indent]
  refine lines.bind fun line offset => ⟨line, offset, ?_⟩
  cases chomping <;> rfl

theorem endLine_eq_append (text : List Char) : ∃ added, Node.endLine text = text ++ added := by
  unfold Node.endLine
  split
  · exact ⟨[], (List.append_nil text).symm⟩
  · exact ⟨_, rfl⟩

theorem endLine_printable (printable : ∀ c ∈ text, Written.isPrintable c = true) :
    ∀ c ∈ Node.endLine text, Written.isPrintable c = true := by
  unfold Node.endLine
  split
  · exact printable
  · rw [List.forall_mem_append, List.forall_mem_singleton]
    exact ⟨printable, by decide⟩

theorem endLine_ends (text : List Char) :
    ∀ c ∈ (Node.endLine text).getLast?, endsLine c = true := by
  unfold Node.endLine
  split
  · rename_i ends
    intro c hc
    rw [Option.mem_def] at hc
    simpa [hc] using ends
  · simpa using by decide

/-- A literal block is read up to a line that is not indented as far. -/
theorem reads_literalBlock {parent : Nat} (nonempty : text ≠ [])
    (printable : ∀ c ∈ text, Written.isPrintable c = true) (onlySpaces : ∀ c ∈ spaces, c = ' ')
    (outside : spaces.length < parent + 2) (blank : isBlank (front rest) = false)
    (ends : isBreak (front rest) = false) :
    Reads (block false parent) column
      (Node.endLine (Written.literalBlock (parent + 2) text) ++ (spaces ++ rest))
      (String.ofList text) spaces.length rest := by
  obtain ⟨c, others, rfl⟩ := List.exists_cons_of_ne_nil nonempty
  obtain ⟨chomping, header, leaves, keeps⟩ := exists_chomping nonempty
  obtain ⟨added, longer⟩ := endLine_eq_append (c :: others)
  obtain ⟨breaks, lines, same, onlyBreaks, lined⟩ :=
    exists_lines (endLine_printable printable) (endLine_ends (c :: others))
  rw [endLine_literalBlock nonempty, header, same]
  simp only [List.append_assoc, List.cons_append]
  rw [← List.append_assoc (writtenIndentation _)]
  rcases lined with rfl | lined
  · -- only line ends, which are all read as empty lines
    rw [List.append_nil] at same ⊢
    obtain ⟨rfl, kept⟩ := keeps fun d hd => onlyBreaks d (by
      rw [← same, longer]
      exact List.mem_append_left _ hd)
    obtain rfl : c :: others = breaks := kept.symm.trans same
    have marked : (List.head? (c :: others)).any (fun c => c = ' ' || endsLine c) = true := by
      simp [onlyBreaks c List.mem_cons_self]
    have begun := @reads_blockBreaks rest (c :: others) spaces (some (parent + 2)) onlyBreaks
      onlySpaces (by simp; omega) (.of_front blank ends)
    have elsewhere : spaces.length ≠ parent + 2 := by omega
    have whole := @reads_block_of column rest (c :: others).reverse parent _ _ spaces.length true
      .keep _ _ ⟨[], [], (c :: others).reverse, false⟩ begun
      (.iterate_of_none fun line offset => ⟨line, offset, by simp [blockStep, elsewhere]⟩)
    rw [marked, indentLines_onlyBreaks onlyBreaks]
    simpa [chomped] using whole
  · -- the lines begin behind the indentation, which their first character shows if no digit does
    obtain ⟨d, tail, begins, first⟩ := lined.front
    obtain ⟨final, loop, holds⟩ := @reads_blockLoop (parent + 2) lines rest spaces lined onlySpaces
      outside blank ends breaks ⟨[], [], breaks.reverse, false⟩ (by simp)
    rw [← same] at holds
    have indented : indentLines (parent + 2) true (breaks ++ lines) ++ (spaces ++ rest) =
        breaks ++ (List.replicate (parent + 2) ' ' ++
          (indentLines (parent + 2) false lines ++ (spaces ++ rest))) := by
      rw [begins, indentLines_breaks onlyBreaks first.2]
      simp only [List.append_assoc]
    have atLine : indentLines (parent + 2) false lines ++ (spaces ++ rest) =
        d :: (indentLines (parent + 2) false tail ++ (spaces ++ rest)) := by
      rw [begins, indentLines, if_neg (by simp [first.2])]
      rfl
    have begun (limit : Option Nat) (inside : ∀ indent ∈ limit, parent + 2 ≤ indent)
        (stops : d ≠ ' ' ∨ limit = some (parent + 2)) :=
      reads_beforeLine onlyBreaks inside
        (show EndsIndentation limit (parent + 2)
          (indentLines (parent + 2) false lines ++ (spaces ++ rest)) from
          atLine ▸ .of_inLine first stops)
    have text : String.ofList (chomped chomping final).reverse = String.ofList (c :: others) := by
      rw [leaves final holds, List.reverse_reverse]
    rw [indented, ← text]
    cases marked : (List.head? (c :: others)).any (fun c => c = ' ' || endsLine c) with
    | true =>
        exact @reads_block_of column rest _ parent _ _ _ true chomping _ _ final
          (begun _ (by simp) (.inr rfl)) loop
    | false =>
        have plain : c ≠ ' ' ∧ endsLine c = false := by simpa using marked
        obtain rfl : c = d := by
          rw [longer, begins] at same
          cases breaks with
          | nil => exact (List.cons_eq_cons.mp same).1
          | cons b breaks =>
              have first : c = b := (List.cons_eq_cons.mp same).1
              exact absurd (onlyBreaks b List.mem_cons_self) (by simp [← first, plain.2])
        refine @reads_block_of column rest _ parent _ _ _ false chomping _ _ final
          (begun _ (by simp) (.inl plain.1)) ?_
        have reached : max (max (parent + 2) (parent + 1)) 1 = parent + 2 := by omega
        simpa [reached] using loop

end ScalarText

end TypeDictionary.Yaml
