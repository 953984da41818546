import Mathlib.Algebra.GroupWithZero.Nat
import TypeDictionary.Proofs.Reader
import TypeDictionary.Yaml.Render

/-!
# Located texts

A text is read through its cells. What a reader does depends on the front of the text and on the
column, but hardly on the line and the bytes before it, so `Scan.Reads` tells of any place in which
the text may be, and composes as readers do.
-/

namespace TypeDictionary.Yaml

open Text (Reader)
open Text.Reader (result)

/-- The character that a text shows at its front. -/
def front (text : List Char) : Char := text.headD theEnd

@[simp] theorem front_nil : front [] = theEnd := rfl
@[simp] theorem front_cons (c : Char) (rest : List Char) : front (c :: rest) = c := rfl

theorem isBreak_of_endsLine {c : Char} (h : Written.endsLine c = true) : isBreak c = true := by
  unfold Written.endsLine at h
  unfold isBreak
  grind

theorem isBlank_of_endsLine {c : Char} (h : Written.endsLine c = true) : isBlank c = false := by
  unfold Written.endsLine at h
  unfold isBlank
  grind

theorem isBreak_of_isGap {c : Char} (h : isGap c = false) : isBreak c = false := by
  unfold isGap isLineEnd at h
  grind

theorem isBlank_of_isGap {c : Char} (h : isGap c = false) : isBlank c = false := by
  unfold isGap at h
  grind

/-- The characters of gaps. -/
def gapChars : List Char := [' ', '\t', '\n', '\r', '\u0085', '\u2028', '\u2029', theEnd]

/-- A character of a kind that no character of gaps is of. -/
theorem isGap_eq_false {kind : Char → Bool} (others : gapChars.all fun d => !kind d) {c : Char}
    (h : kind c = true) : isGap c = false := by
  refine Bool.eq_false_iff.mpr fun gap => ?_
  have member : c ∈ gapChars := by
    unfold isGap isBlank isLineEnd isBreak at gap
    unfold gapChars
    grind
  have not := List.all_eq_true.mp others c member
  simp [h] at not

/-- The length of a text in bytes. -/
def byteLength (text : List Char) : Nat := (text.map Char.utf8Size).sum

namespace Cell

variable {line column offset : Nat} {c : Char} {text rest : List Char}

theorem locateFrom_eq_cons (line column offset : Nat) (text : List Char) :
    ∃ cells, locateFrom line column offset text = ⟨front text, line, column, offset⟩ :: cells := by
  cases text <;> exact ⟨_, rfl⟩

theorem locateFrom_cons (h : isBreak c = false) :
    locateFrom line column offset (c :: rest) =
      ⟨c, line, column, offset⟩ :: locateFrom line (column + 1) (offset + c.utf8Size) rest := by
  simp [locateFrom, h]

theorem locateFrom_break (h : isBreak c = true) (notReturn : c ≠ '\r') :
    locateFrom line column offset (c :: rest) =
      ⟨c, line, column, offset⟩ :: locateFrom (line + 1) 0 (offset + c.utf8Size) rest := by
  simp [locateFrom, h, notReturn]

/-- The place behind a text, counted from its second character on. -/
theorem locateFrom_behind_cons (c : Char) (text rest : List Char) :
    locateFrom line (column + (c :: text).length) (offset + byteLength (c :: text)) rest =
      locateFrom line (column + 1 + text.length) (offset + c.utf8Size + byteLength text) rest := by
  simp only [List.length_cons, byteLength, List.map_cons, List.sum_cons]
  congr 1 <;> omega

@[simp] theorem length_locateFrom :
    (locateFrom line column offset text).length = text.length + 1 := by
  induction text generalizing line column offset with
  | nil => rfl
  | cons c rest ih =>
      unfold locateFrom
      dsimp only
      split <;> simp [ih]

/-- The cells of a line up to a character that does not satisfy a predicate hold its text. -/
theorem span_locateFrom {p : Char → Bool} (kept : ∀ c ∈ text, p c = true ∧ isBreak c = false)
    (ends : p (front rest) = false) :
    ((locateFrom line column offset (text ++ rest)).takeWhile fun cell => p cell.char).map char =
        text ∧
      (locateFrom line column offset (text ++ rest)).dropWhile (fun cell => p cell.char) =
        locateFrom line (column + text.length) (offset + byteLength text) rest := by
  induction text generalizing column offset with
  | nil =>
      obtain ⟨cells, h⟩ := locateFrom_eq_cons line column offset rest
      simp [h, ends, byteLength]
  | cons c text ih =>
      rw [List.forall_mem_cons] at kept
      obtain ⟨chars, left⟩ := @ih (column + 1) (offset + c.utf8Size) kept.2
      rw [List.cons_append, locateFrom_cons kept.1.2]
      simp only [List.takeWhile_cons, List.dropWhile_cons, kept.1.1, if_true, List.map_cons, chars,
        left, locateFrom_behind_cons, and_self]

/-- The cells of characters on a line hold them. -/
theorem take_locateFrom (oneLine : ∀ c ∈ text, isBreak c = false) :
    ((locateFrom line column offset (text ++ rest)).map char).take text.length = text := by
  induction text generalizing column offset with
  | nil => rfl
  | cons c text ih =>
      rw [List.forall_mem_cons] at oneLine
      rw [List.cons_append, locateFrom_cons oneLine.1, List.length_cons, List.map_cons,
        List.take_succ_cons, ih oneLine.2]

end Cell

namespace Scan

open Cell (locateFrom)
open Written (endsLine)

variable {line column offset : Nat} {c : Char} {text rest : List Char}

@[simp] theorem result_remaining (cells : List Cell) :
    result remaining cells = .ok (cells, cells) := rfl

@[simp] theorem result_here (line column offset : Nat) (text : List Char) :
    result here (locateFrom line column offset text) =
      .ok (⟨front text, line, column, offset⟩, locateFrom line column offset text) := by
  obtain ⟨cells, h⟩ := Cell.locateFrom_eq_cons line column offset text
  rw [h]
  rfl

@[simp] theorem result_ahead_zero (line column offset : Nat) (text : List Char) :
    result (ahead 0) (locateFrom line column offset text) =
      .ok (front text, locateFrom line column offset text) := by
  obtain ⟨cells, h⟩ := Cell.locateFrom_eq_cons line column offset text
  rw [h]
  rfl

@[simp] theorem result_ahead_one (line column offset : Nat) (text : List Char) :
    result (ahead 1) (locateFrom line column offset text) =
      .ok (front text.tail, locateFrom line column offset text) := by
  cases text with
  | nil => rfl
  | cons c rest =>
      unfold locateFrom
      dsimp only
      split
      · obtain ⟨cells, same⟩ :=
          Cell.locateFrom_eq_cons (line + 1) 0 (offset + c.utf8Size) rest
        rw [same]
        rfl
      · obtain ⟨cells, same⟩ :=
          Cell.locateFrom_eq_cons line (column + 1) (offset + c.utf8Size) rest
        rw [same]
        rfl

@[simp] theorem result_skip (h : isBreak c = false) :
    result skip (locateFrom line column offset (c :: rest)) =
      .ok ((), locateFrom line (column + 1) (offset + c.utf8Size) rest) := by
  rw [Cell.locateFrom_cons h]
  rfl

@[simp] theorem result_skipMany (oneLine : ∀ c ∈ text, isBreak c = false) :
    result (skipMany text.length) (locateFrom line column offset (text ++ rest)) =
      .ok ((), locateFrom line (column + text.length) (offset + byteLength text) rest) := by
  induction text generalizing column offset with
  | nil => rfl
  | cons c text ih =>
      rw [List.forall_mem_cons] at oneLine
      rw [List.length_cons, skipMany, Reader.result_bind, List.cons_append, result_skip oneLine.1,
        Reader.ok_bind, ih oneLine.2, ← List.length_cons, Cell.locateFrom_behind_cons]

/-- A line end that is written as it is means itself. -/
@[simp] theorem result_lineBreak (h : endsLine c = true) :
    result lineBreak (locateFrom line column offset (c :: rest)) =
      .ok (c, locateFrom (line + 1) 0 (offset + c.utf8Size) rest) := by
  have notReturn : c ≠ '\r' := by
    rintro rfl
    exact absurd h (by decide)
  have skipped : result skip (locateFrom line column offset (c :: rest)) =
      .ok ((), locateFrom (line + 1) 0 (offset + c.utf8Size) rest) := by
    rw [Cell.locateFrom_break (isBreak_of_endsLine h) notReturn]
    rfl
  have same : (if c = '\u2028' ∨ c = '\u2029' then c else '\n') = c := by
    unfold endsLine at h
    grind
  simp [lineBreak, skipped, notReturn, same]

/-- A mark between documents stands at the front of a line. -/
@[simp] theorem result_atDocumentMark (h : column ≠ 0) :
    result atDocumentMark (locateFrom line column offset text) =
      .ok (false, locateFrom line column offset text) := by
  obtain ⟨cells, same⟩ := Cell.locateFrom_eq_cons line column offset text
  rw [same]
  rcases cells with _ | ⟨second, _ | ⟨third, cells⟩⟩
  · rfl
  · rfl
  · simp [atDocumentMark, h]

/-- The text of a line up to a character that does not satisfy a predicate. -/
theorem result_takeWhile {p : Char → Bool} (kept : ∀ c ∈ text, p c = true ∧ isBreak c = false)
    (ends : p (front rest) = false) :
    result (takeWhile p) (locateFrom line column offset (text ++ rest)) =
      .ok (text, locateFrom line (column + text.length) (offset + byteLength text) rest) := by
  obtain ⟨chars, left⟩ := @Cell.span_locateFrom line column offset text rest p kept ends
  unfold takeWhile
  rw [Reader.result_bind, Reader.result_takeWhile, Reader.ok_bind, Reader.result_pure, chars, left]

/-- Wherever a text is, if only it begins in the given column, a reader gives a value and leaves the
rest of the text, which begins in the other column. -/
def Reads {α : Type} (reader : Scan α) (column : Nat) (text : List Char) (value : α)
    (column' : Nat) (rest : List Char) : Prop :=
  ∀ line offset, ∃ line' offset', result reader (locateFrom line column offset text) =
    .ok (value, locateFrom line' column' offset' rest)

namespace Reads

variable {α β : Type} {first : Scan α} {next : α → Scan β} {value : α} {final : β}
  {column' column'' : Nat} {middle : List Char}

theorem bind (h : Reads first column text value column' middle)
    (h' : Reads (next value) column' middle final column'' rest) :
    Reads (first >>= next) column text final column'' rest := by
  intro line offset
  obtain ⟨line', offset', read⟩ := h line offset
  obtain ⟨line'', offset'', read'⟩ := h' line' offset'
  exact ⟨line'', offset'', by rw [Reader.result_bind, read, Reader.ok_bind, read']⟩

variable {step : β → Scan (Option β)} {state : β}

theorem iterate_of_none (h : Reads (step state) column text none column' rest) :
    Reads (iterate step state) column text state column' rest := by
  intro line offset
  obtain ⟨line', offset', read⟩ := h line offset
  exact ⟨line', offset', Reader.result_iterate_of_none read⟩

theorem iterate_of_some {later : β} (h : Reads (step state) column text (some later) column' middle)
    (progress : middle.length < text.length)
    (h' : Reads (iterate step later) column' middle final column'' rest) :
    Reads (iterate step state) column text final column'' rest := by
  intro line offset
  obtain ⟨line', offset', read⟩ := h line offset
  obtain ⟨line'', offset'', read'⟩ := h' line' offset'
  exact ⟨line'', offset'',
    (Reader.result_iterate_of_some read (by simpa using progress)).trans read'⟩

end Reads

end Scan

end TypeDictionary.Yaml
