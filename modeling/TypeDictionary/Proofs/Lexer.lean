import TypeDictionary.Proofs.Cell

/-!
# Steps of the lexer

What becomes of a text from some place on is what becomes of it from a later place, where the lexer
has found more tokens. Space before a token is used together with the token, so a place before the
space and the place of the token count as one: the same token comes next at both.
-/

namespace TypeDictionary.Yaml

open Cell (locateFrom)
open Scan (Reads)
open Text (Reader)
open Text.Reader (result)
open Written (endsLine)

/-- A text whose first character is not skipped before a token. -/
structure Settled (text : List Char) : Prop where
  blank : isBlank (front text) = false
  ends : isBreak (front text) = false
  notMark : front text ≠ '#' ∧ front text ≠ '\ufeff'

namespace Lexer

open Scan

variable {line column offset : Nat} {spaces text rest : List Char} {lexer : Lexer}

/-- One space, comment or line end before a token. -/
def spaceStep (lexer : Lexer) : Scan (Option Lexer) := do
  let cell ← here
  if cell.char = ' ' ∨ (cell.char = '\t' ∧ (lexer.inFlow ∨ !lexer.keyAllowed)) ∨
      (cell.char = '\ufeff' ∧ cell.column = 0) then
    skip
    return some lexer
  else if cell.char = '#' then
    let _ ← takeWhile fun c => !isLineEnd c
    return some lexer
  else if isBreak cell.char then
    let _ ← lineBreak
    return some { lexer with keyAllowed := !lexer.inFlow || lexer.keyAllowed }
  else return none

theorem skipSpace_eq (lexer : Lexer) : lexer.skipSpace = iterate spaceStep lexer := rfl

theorem result_skipSpace_of_settled (settled : Settled text) :
    result lexer.skipSpace (locateFrom line column offset text) =
      .ok (lexer, locateFrom line column offset text) := by
  obtain ⟨blank, ends, notHash, notOrder⟩ := settled
  have notBlank : front text ≠ ' ' ∧ front text ≠ '\t' := by
    unfold isBlank at blank
    grind
  rw [skipSpace_eq]
  refine Reader.result_iterate_of_none ?_
  simp [spaceStep, ends, notHash, notOrder, notBlank]

theorem result_skipSpace_spaces (onlySpaces : ∀ c ∈ spaces, c = ' ') (settled : Settled rest) :
    result lexer.skipSpace (locateFrom line column offset (spaces ++ rest)) =
      .ok (lexer, locateFrom line (column + spaces.length) (offset + byteLength spaces) rest) := by
  induction spaces generalizing column offset with
  | nil => exact result_skipSpace_of_settled settled
  | cons c spaces ih =>
      obtain ⟨rfl, others⟩ := List.forall_mem_cons.mp onlySpaces
      have later := @ih (column + 1) (offset + ' '.utf8Size) others
      rw [Cell.locateFrom_behind_cons, ← later, skipSpace_eq]
      refine Reader.result_iterate_of_some ?_ (by simp)
      simp [spaceStep, isBreak]

theorem result_skipSpace_lineEnd {c : Char} (lineEnd : endsLine c = true)
    (onlySpaces : ∀ c ∈ spaces, c = ' ') (settled : Settled rest) (block : lexer.inFlow = false) :
    result lexer.skipSpace (locateFrom line column offset (c :: (spaces ++ rest))) =
      .ok ({ lexer with keyAllowed := true },
        locateFrom (line + 1) spaces.length (offset + c.utf8Size + byteLength spaces) rest) := by
  have later := @result_skipSpace_spaces (line + 1) 0 (offset + c.utf8Size) spaces rest
    { lexer with keyAllowed := true } onlySpaces settled
  rw [Nat.zero_add] at later
  rw [← later, skipSpace_eq]
  refine Reader.result_iterate_of_some ?_ (by simp)
  have others : c ≠ ' ' ∧ c ≠ '\t' ∧ c ≠ '\ufeff' ∧ c ≠ '#' := by
    unfold endsLine at lineEnd
    grind
  simp [spaceStep, others, lineEnd, isBreak_of_endsLine, block]

/-- The token that begins with a cell, given the next character. -/
def scan (lexer : Lexer) (cell : Cell) (next : Char) : Scan (Option Lexer) :=
  match cell.char with
  | '[' => some <$> lexer.openFlow cell .flowSequenceStart
  | '{' => some <$> lexer.openFlow cell .flowMappingStart
  | ']' => some <$> lexer.closeFlow .flowSequenceEnd
  | '}' => some <$> lexer.closeFlow .flowMappingEnd
  | ',' => some <$> lexer.flowEntry
  | '&' => some <$> lexer.anchor cell
  | '*' => some <$> lexer.reference cell
  | '!' => some <$> lexer.tag cell
  | '\'' | '"' => some <$> lexer.quotedScalar cell
  | c =>
    if c = '-' ∧ isGap next then some <$> lexer.blockEntry cell
    else if c = '?' ∧ (lexer.inFlow ∨ isGap next) then some <$> lexer.explicitKey cell
    else if c = ':' ∧ (lexer.inFlow ∨ isGap next) then some <$> lexer.colon cell
    else if (c = '|' ∨ c = '>') ∧ !lexer.inFlow then
      some <$> lexer.blockScalar (decide (c = '>'))
    else if lexer.beginsPlain c next then some <$> lexer.plainScalar cell
    else fail

theorem step_eq (lexer : Lexer) :
    lexer.step = (do
      if (← remaining).isEmpty then return none
      let lexer ← lexer.skipSpace
      let cell ← here
      let next ← ahead 1
      let lexer ← lexer.dropStale cell
      let lexer := lexer.closeBlocks cell.column
      if cell.char = theEnd then
        let lexer ← lexer.betweenDocuments
        skip
        return some lexer
      else if cell.column = 0 ∧ cell.char = '%' then
        let lexer ← lexer.betweenDocuments
        some <$> lexer.directive
      else if ← atDocumentMark then
        let lexer ← lexer.betweenDocuments
        skipMany 3
        return some (lexer.emit (if cell.char = '-' then .documentStart else .documentEnd))
      else lexer.scan cell next) := rfl

/-- No directive and no mark between documents begins at a place. -/
def NoMark (column : Nat) (text : List Char) : Prop :=
  column ≠ 0 ∨ (front text ≠ '%' ∧ front text ≠ '.' ∧ (front text = '-' → front text.tail ≠ '-'))

theorem NoMark.result_atDocumentMark (h : NoMark column text) :
    result atDocumentMark (locateFrom line column offset text) =
      .ok (false, locateFrom line column offset text) := by
  rcases h with h | ⟨-, notPoint, notHyphens⟩
  · exact Scan.result_atDocumentMark h
  · obtain ⟨cells, same⟩ := Cell.locateFrom_eq_cons line column offset text
    have second := @Scan.result_ahead_one line column offset text
    rw [same] at second ⊢
    rcases cells with _ | ⟨b, _ | ⟨c, cells⟩⟩
    · rfl
    · rfl
    · have next : b.char = front text.tail := congrArg Prod.fst (Except.ok.inj second)
      have differs : ¬((front text = '-' ∨ front text = '.') ∧ b.char = front text) := by
        rintro ⟨hyphen | point, again⟩
        · exact notHyphens hyphen (by rw [← next, again, hyphen])
        · exact notPoint point
      have none : ¬(column = 0 ∧ (front text = '-' ∨ front text = '.') ∧ b.char = front text ∧
          c.char = front text ∧
            (cells.head?.map fun cell => isGap cell.char).getD true = true) := by grind
      simp only [Scan.atDocumentMark, Reader.result_bind, Scan.result_remaining, Reader.ok_bind,
        Reader.result_pure, decide_eq_false none]

theorem result_step (settled : Settled text) (notEnd : front text ≠ theEnd)
    (noMark : NoMark column text)
    (fresh : lexer.dropStale ⟨front text, line, column, offset⟩ = pure lexer)
    (closed : lexer.closeBlocks column = lexer) :
    result lexer.step (locateFrom line column offset text) =
      result (lexer.scan ⟨front text, line, column, offset⟩ (front text.tail))
        (locateFrom line column offset text) := by
  have skipped := @result_skipSpace_of_settled line column offset text lexer settled
  have unmarked := @NoMark.result_atDocumentMark line column offset text noMark
  have notDirective : ¬(column = 0 ∧ front text = '%') := by
    rcases noMark with h | h
    · exact fun directive => h directive.1
    · exact fun directive => h.1 directive.2
  have nonempty : locateFrom line column offset text ≠ [] := by
    obtain ⟨cells, same⟩ := Cell.locateFrom_eq_cons line column offset text
    rw [same]
    exact List.cons_ne_nil _ _
  rw [step_eq]
  simp [nonempty, skipped, fresh, closed, notEnd, notDirective, unmarked]

/-- What becomes of the cells that are left. -/
def tokensFrom (lexer : Lexer) (cells : List Cell) : Except Malformed (Lexer × List Cell) :=
  result (iterate step lexer) cells

/-- The next token is the same at both places, of which the second is not before the first. -/
def Pends (waiting : Lexer) (before : List Cell) (lexer : Lexer) (cells : List Cell) : Prop :=
  result waiting.step before = result lexer.step cells ∧ cells.length ≤ before.length

/-- What becomes of the cells is what becomes of the later ones. -/
def Continues (lexer : Lexer) (cells : List Cell) (later : Lexer) (rest : List Cell) : Prop :=
  ∀ ⦃waiting before⦄, Pends waiting before lexer cells → ∃ waiting' before',
    Pends waiting' before' later rest ∧ tokensFrom waiting before = tokensFrom waiting' before'

namespace Continues

variable {later last : Lexer} {cells middle left : List Cell}

theorem trans (h : Continues lexer cells later middle) (h' : Continues later middle last left) :
    Continues lexer cells last left := by
  intro waiting before pends
  obtain ⟨waiting', before', pends', same⟩ := h pends
  obtain ⟨waiting'', before'', pends'', same'⟩ := h' pends'
  exact ⟨waiting'', before'', pends'', same.trans same'⟩

theorem of_step_eq (h : result lexer.step cells = result later.step cells) :
    Continues lexer cells later cells :=
  fun waiting before pends => ⟨waiting, before, ⟨pends.1.trans h, pends.2⟩, rfl⟩

theorem of_skipSpace (skipped : result lexer.skipSpace cells = .ok (later, left))
    (settled : result later.skipSpace left = .ok (later, left)) (fewer : left.length ≤ cells.length)
    (nonempty : left ≠ []) : Continues lexer cells later left := by
  intro waiting before pends
  have nonempty' : cells ≠ [] := by
    rintro rfl
    exact nonempty (List.eq_nil_of_length_eq_zero (Nat.le_zero.mp fewer))
  -- a step begins by skipping, which at the later place skips nothing more
  have same : result lexer.step cells = result later.step left := by
    rw [step_eq, step_eq]
    simp [skipped, settled, nonempty, nonempty']
  exact ⟨waiting, before, ⟨pends.1.trans same, Nat.le_trans fewer pends.2⟩, rfl⟩

theorem of_step (h : result lexer.step cells = .ok (some later, left))
    (progress : left.length < cells.length) : Continues lexer cells later left := by
  intro waiting before pends
  have first : result waiting.step before = .ok (some later, left) := pends.1.trans h
  exact ⟨later, left, ⟨rfl, Nat.le_refl _⟩,
    Reader.result_iterate_of_some first (Nat.lt_of_lt_of_le progress pends.2)⟩

end Continues

/-- Wherever a text is, if only it begins in the given column, it continues with the rest, which
begins in the other column. -/
def Lexes (lexer : Lexer) (column : Nat) (text : List Char) (later : Lexer) (column' : Nat)
    (rest : List Char) : Prop :=
  ∀ line offset, ∃ line' offset', Continues lexer (locateFrom line column offset text) later
    (locateFrom line' column' offset' rest)

namespace Lexes

variable {later last : Lexer} {column' column'' : Nat} {middle : List Char}

theorem trans (h : Lexes lexer column text later column' middle)
    (h' : Lexes later column' middle last column'' rest) :
    Lexes lexer column text last column'' rest := by
  intro line offset
  obtain ⟨line', offset', continues⟩ := h line offset
  obtain ⟨line'', offset'', continues'⟩ := h' line' offset'
  exact ⟨line'', offset'', continues.trans continues'⟩

theorem of_spaces (onlySpaces : ∀ c ∈ spaces, c = ' ') (settled : Settled rest) :
    Lexes lexer column (spaces ++ rest) lexer (column + spaces.length) rest :=
  fun line offset => ⟨line, offset + byteLength spaces,
    .of_skipSpace (result_skipSpace_spaces onlySpaces settled)
      (result_skipSpace_of_settled settled) (by simp) (by simp [← List.length_eq_zero_iff])⟩

theorem of_lineEnd {c : Char} (lineEnd : endsLine c = true) (onlySpaces : ∀ c ∈ spaces, c = ' ')
    (settled : Settled rest) (block : lexer.inFlow = false) :
    Lexes lexer column (c :: (spaces ++ rest)) { lexer with keyAllowed := true } spaces.length
      rest :=
  fun line offset => ⟨line + 1, offset + c.utf8Size + byteLength spaces,
    .of_skipSpace (result_skipSpace_lineEnd lineEnd onlySpaces settled block)
      (result_skipSpace_of_settled settled) (by simp; omega)
      (by simp [← List.length_eq_zero_iff])⟩

theorem of_step (h : Reads lexer.step column text (some later) column' rest)
    (progress : rest.length < text.length) : Lexes lexer column text later column' rest := by
  intro line offset
  obtain ⟨line', offset', read⟩ := h line offset
  exact ⟨line', offset', .of_step read (by simpa using progress)⟩

end Lexes

end Lexer

end TypeDictionary.Yaml
