import TypeDictionary.Proofs.Lexer
import TypeDictionary.Proofs.LiteralScalar
import TypeDictionary.Proofs.PlainScalar

/-!
# Tokens in block style

The tokens that make up a document in block style, one lemma each: a value in one of its styles, an
empty sequence, the hyphen of an item, a key with its colon, and the end of a collection, which
shows in the column of what comes next. All leave the lexer outside of flow collections and without
a place where a key may have begun, so they can follow each other.
-/

namespace TypeDictionary.Yaml

open Cell (locateFrom)
open Scan (Reads)
open Text (Reader)
open Text.Reader (result)
open Written (endsLine)

namespace Lexer

open Scan

variable {line column offset : Nat} {spaces text rest : List Char} {lexer : Lexer}

/-- A lexer outside of flow collections that remembers no place where a key may have begun. -/
def inBlock (tokens : List Token) (columns : List Nat) (keyAllowed : Bool) : Lexer :=
  ⟨tokens, columns, [none], keyAllowed, [], []⟩

section InBlock

variable {tokens : List Token} {columns : List Nat} {keyAllowed : Bool}

@[simp] theorem inFlow_inBlock : (inBlock tokens columns keyAllowed).inFlow = false := rfl

@[simp] theorem dropStale_inBlock (cell : Cell) :
    (inBlock tokens columns keyAllowed).dropStale cell = pure (inBlock tokens columns keyAllowed) :=
  rfl

@[simp] theorem dropCandidate_inBlock :
    (inBlock tokens columns keyAllowed).dropCandidate = pure (inBlock tokens columns keyAllowed) :=
  rfl

@[simp] theorem saveCandidate_inBlock (cell : Cell) :
    (inBlock tokens columns false).saveCandidate cell = pure (inBlock tokens columns false) :=
  rfl

@[simp] theorem indent_inBlock_cons (first : Nat) :
    (inBlock tokens (first :: columns) keyAllowed).indent = first :=
  rfl

theorem closeBlocks_of_le {column : Nat} (h : lexer.indent ≤ column) :
    lexer.closeBlocks column = lexer := by
  obtain ⟨tokens, columns, candidates, keyAllowed, handles, anchors⟩ := lexer
  cases columns with
  | nil => simp [closeBlocks]
  | cons first columns => 
      have inside : ¬column < first := by
        have : (first : Int) ≤ column := h
        omega
      simp [closeBlocks, inside]

/-- A text that begins with a character of a token. -/
structure Begins (text : List Char) : Prop where
  solid : isGap (front text) = false
  notMark : front text ≠ '#' ∧ front text ≠ '\ufeff'

theorem Begins.settled (h : Begins text) : Settled text :=
  ⟨isBlank_of_isGap h.solid, isBreak_of_isGap h.solid, h.notMark⟩

theorem Begins.notEnd (h : Begins text) : front text ≠ theEnd := by
  intro same
  have solid := h.solid
  rw [same] at solid
  exact absurd solid (by decide)

/-- A token that begins to the right of where the innermost open collection does, or there. -/
theorem result_step_inBlock (begins : Begins text) (noMark : NoMark column text)
    (inside : (inBlock tokens columns keyAllowed).indent ≤ column) :
    result (inBlock tokens columns keyAllowed).step (locateFrom line column offset text) =
      result ((inBlock tokens columns keyAllowed).scan ⟨front text, line, column, offset⟩
        (front text.tail)) (locateFrom line column offset text) :=
  result_step begins.settled begins.notEnd noMark (dropStale_inBlock _) (closeBlocks_of_le inside)

theorem scan_plain {c : Char} {others : List Char} {cell : Cell}
    (begins : Written.beginsAsIndicator (c :: others) = false) (solid : isGap c = false)
    (block : lexer.inFlow = false) (char : cell.char = c) :
    lexer.scan cell (front (others ++ rest)) = some <$> lexer.plainScalar cell := by
  simp only [Written.beginsAsIndicator, String.reduceToList, List.contains_eq_mem, List.mem_cons,
    List.not_mem_nil, or_false, Bool.decide_or, Bool.or_eq_false_iff, decide_eq_false_iff_not,
    Bool.and_eq_false_imp, Bool.or_eq_true, decide_eq_true_eq] at begins
  obtain ⟨notIndicator, mark⟩ := begins
  have next : c = '-' ∨ c = '?' ∨ c = ':' → isGap (front (others ++ rest)) = false := by
    intro h
    cases others with
    | nil => simpa using mark h
    | cons d others => simpa using mark h
  have blank : c = '-' → isBlank (front (others ++ rest)) = false :=
    fun h => isBlank_of_isGap (next (.inl h))
  unfold scan
  rw [char]
  split <;> first | (exfalso; simp at notIndicator) | skip
  have notEntry : ¬(c = '-' ∧ isGap (front (others ++ rest)) = true) := by grind
  have notKey : ¬(c = '?' ∧ (lexer.inFlow = true ∨ isGap (front (others ++ rest)) = true)) := by
    grind
  have notColon : ¬(c = ':' ∧ (lexer.inFlow = true ∨ isGap (front (others ++ rest)) = true)) := by
    grind
  have notBlock : ¬((c = '|' ∨ c = '>') ∧ (!lexer.inFlow) = true) := by grind
  have beginsPlain : lexer.beginsPlain c (front (others ++ rest)) = true := by
    simp only [beginsPlain, isIndicator, String.reduceToList, List.contains_eq_mem, List.mem_cons,
      List.not_mem_nil, or_false, Bool.decide_or, Bool.not_or]
    grind
  rw [if_neg notEntry, if_neg notKey, if_neg notColon, if_neg notBlock, if_pos beginsPlain]

section Values

variable {first : Nat} {text : List Char}

theorem lexes_plain (isPlain : ScalarText.IsPlain text)
    (begins : Written.beginsAsIndicator text = false) (notOrder : front text ≠ '\ufeff')
    (inside : first < column) (onlySpaces : ∀ c ∈ spaces, c = ' ') (outside : spaces.length ≤ first)
    (settled : Settled rest) :
    Lexes (inBlock tokens (first :: columns) false) column (text ++ '\n' :: (spaces ++ rest))
      (inBlock (.scalar (String.ofList text) .plain :: tokens) (first :: columns) true)
      spaces.length rest := by
  refine .of_step (fun line offset => ?_) (by simp; omega)
  have notFirst : column ≠ 0 := Nat.ne_of_gt (Nat.zero_lt_of_lt inside)
  obtain ⟨line', offset', read⟩ := ScalarText.reads_plain isPlain inside notFirst onlySpaces
    (Nat.lt_succ_of_le outside) settled.blank settled.ends line offset
  refine ⟨line', offset', ?_⟩
  obtain ⟨c, others, rfl⟩ := List.exists_cons_of_ne_nil isPlain.nonempty
  have solid : isGap c = false := (isPlain.solid c List.mem_cons_self).resolve_left
    fun same => isPlain.begins.1 (congrArg some same)
  have token : Begins (c :: (others ++ '\n' :: (spaces ++ rest))) :=
    ⟨solid, fun same => isPlain.begins.2 (congrArg some same), notOrder⟩
  rw [List.cons_append] at read ⊢
  rw [result_step_inBlock token (.inl notFirst) (by rw [indent_inBlock_cons]; omega),
    List.tail_cons, scan_plain begins solid rfl rfl]
  simp [plainScalar, read]
  rfl

theorem lexes_literal (nonempty : text ≠ [])
    (printable : ∀ c ∈ text, Written.isPrintable c = true) (inside : first < column)
    (onlySpaces : ∀ c ∈ spaces, c = ' ') (outside : spaces.length ≤ first)
    (settled : Settled rest) :
    Lexes (inBlock tokens (first :: columns) false) column
      (Node.endLine (Written.literalBlock (first + 2) text) ++ (spaces ++ rest))
      (inBlock (.scalar (String.ofList text) .literal :: tokens) (first :: columns) true)
      spaces.length rest := by
  rw [ScalarText.endLine_literalBlock nonempty]
  have header : ∃ others, Written.blockHeader text = '|' :: others := ⟨_, rfl⟩
  have read := @ScalarText.reads_literalBlock column text rest spaces first nonempty printable
    onlySpaces (by omega) settled.blank settled.ends
  rw [ScalarText.endLine_literalBlock nonempty] at read
  obtain ⟨others, header⟩ := header
  rw [header] at read ⊢
  refine .of_step (fun line offset => ?_) (by simp; omega)
  obtain ⟨line', offset', read⟩ := read line offset
  refine ⟨line', offset', ?_⟩
  have token (rest : List Char) : Begins ('|' :: rest) := ⟨by rw [front_cons]; decide, by simp⟩
  simp only [List.cons_append, List.append_assoc] at read ⊢
  rw [result_step_inBlock (token _) (.inl (by omega)) (by rw [indent_inBlock_cons]; omega)]
  simp [scan, blockScalar, read]
  rfl

theorem lexes_quoted {quote : Char} {written : List Char} {value : String} {column' : Nat}
    (begins : ∃ others, written = quote :: others) (isQuote : quote = '\'' ∨ quote = '"')
    (reads : Reads ScalarText.quoted column (written ++ '\n' :: (spaces ++ rest)) value column'
      ('\n' :: (spaces ++ rest)))
    (inside : first < column) (onlySpaces : ∀ c ∈ spaces, c = ' ') (settled : Settled rest) :
    Lexes (inBlock tokens (first :: columns) false) column (written ++ '\n' :: (spaces ++ rest))
      (inBlock (.scalar value .quoted :: tokens) (first :: columns) true) spaces.length rest := by
  obtain ⟨others, rfl⟩ := begins
  have ended : Lexes (inBlock (.scalar value .quoted :: tokens) (first :: columns) false) column'
      ('\n' :: (spaces ++ rest))
      (inBlock (.scalar value .quoted :: tokens) (first :: columns) true) spaces.length rest :=
    .of_lineEnd (by decide) onlySpaces settled rfl
  refine .trans (.of_step (fun line offset => ?_)
    (by simp only [List.length_cons, List.length_append]; omega)) ended
  obtain ⟨line', offset', read⟩ := reads line offset
  refine ⟨line', offset', ?_⟩
  have token (rest : List Char) : Begins (quote :: rest) := by
    rcases isQuote with rfl | rfl <;> exact ⟨by rw [front_cons]; decide, by simp⟩
  rw [List.cons_append] at read ⊢
  rw [result_step_inBlock (token _) (.inl (by omega)) (by rw [indent_inBlock_cons]; omega)]
  rcases isQuote with rfl | rfl <;>
    · simp [scan, quotedScalar, read]
      rfl

/-- An empty sequence is written in flow style. -/
theorem lexes_emptySequence (inside : first < column) (onlySpaces : ∀ c ∈ spaces, c = ' ')
    (settled : Settled rest) :
    Lexes (inBlock tokens (first :: columns) false) column ('[' :: ']' :: '\n' :: (spaces ++ rest))
      (inBlock (.flowSequenceEnd :: .flowSequenceStart :: tokens) (first :: columns) true)
      spaces.length rest := by
  -- between the brackets the lexer is in a flow collection, with a candidate of its own
  let opened : Lexer :=
    ⟨.flowSequenceStart :: tokens, first :: columns, [none, none], true, [], []⟩
  let closed : Lexer :=
    inBlock (.flowSequenceEnd :: .flowSequenceStart :: tokens) (first :: columns) false
  have token {c : Char} (bracket : c = '[' ∨ c = ']') (rest : List Char) : Begins (c :: rest) := by
    rcases bracket with rfl | rfl <;> exact ⟨by rw [front_cons]; decide, by simp⟩
  have opens : Lexes (inBlock tokens (first :: columns) false) column
      ('[' :: ']' :: '\n' :: (spaces ++ rest)) opened (column + 1)
      (']' :: '\n' :: (spaces ++ rest)) := by
    refine .of_step (fun line offset => ⟨line, offset + '['.utf8Size, ?_⟩) (by simp)
    rw [result_step_inBlock (token (.inl rfl) _) (.inl (by omega))
      (by rw [indent_inBlock_cons]; omega)]
    simp [scan, openFlow, isBreak]
    rfl
  have closes : Lexes opened (column + 1) (']' :: '\n' :: (spaces ++ rest)) closed (column + 2)
      ('\n' :: (spaces ++ rest)) := by
    refine .of_step (fun line offset => ⟨line, offset + ']'.utf8Size, ?_⟩) (by simp)
    rw [result_step (token (.inr rfl) _).settled (token (.inr rfl) _).notEnd (.inl (by omega)) rfl
      rfl]
    simp [scan, closeFlow]
    rfl
  exact opens.trans (closes.trans (.of_lineEnd (by decide) onlySpaces settled rfl))

/-- The hyphen before an item whose collection is open. -/
theorem lexes_entry (settled : Settled rest) :
    Lexes (inBlock tokens (first :: columns) true) first ('-' :: ' ' :: rest)
      (inBlock (.blockEntry :: tokens) (first :: columns) true) (first + 2) rest := by
  have space : Lexes (inBlock (.blockEntry :: tokens) (first :: columns) true) (first + 1)
      (' ' :: rest) (inBlock (.blockEntry :: tokens) (first :: columns) true) (first + 2) rest :=
    @Lexes.of_spaces (first + 1) [' '] rest _ (by simp) settled
  refine .trans (.of_step (fun line offset => ⟨line, offset + '-'.utf8Size, ?_⟩) (by simp)) space
  have token : Begins ('-' :: ' ' :: rest) := ⟨by rw [front_cons]; decide, by simp⟩
  rw [result_step_inBlock token (.inr (by simp)) (by simp)]
  have gap : isGap ' ' = true := by decide
  simp [scan, blockEntry, openBlock, gap, isBreak]
  rfl

end Values

/-- Whether a character may stand in a word: a letter or an underscore. -/
def isLetter (c : Char) : Bool := c.isAlpha || c = '_'

/-- A key that is written as it is: letters and underscores, not too many for a key. -/
structure IsWord (word : List Char) : Prop where
  nonempty : word ≠ []
  letters : ∀ c ∈ word, isLetter c = true
  short : byteLength word ≤ 1024

/-- A lexer outside of flow collections that remembers a place where a key may have begun. -/
def remembering (tokens : List Token) (columns : List Nat) (candidate : Candidate)
    (keyAllowed : Bool) : Lexer :=
  ⟨tokens, columns, [some candidate], keyAllowed, [], []⟩

theorem saveCandidate_of_keyAllowed (cell : Cell) :
    (inBlock tokens columns true).saveCandidate cell = pure (remembering tokens columns
      ⟨tokens.length, cell, decide ((inBlock tokens columns true).indent = cell.column)⟩ true) := by
  simp [saveCandidate]
  rfl

@[simp] theorem inFlow_remembering (candidate : Candidate) :
    (remembering tokens columns candidate keyAllowed).inFlow = false := rfl

@[simp] theorem indent_remembering (candidate : Candidate) :
    (remembering tokens columns candidate keyAllowed).indent =
      (inBlock tokens columns keyAllowed).indent := rfl

/-- The collections that are open when a key has been found at a column, and their tokens. -/
def openMapping (tokens : List Token) (columns : List Nat) (column : Nat) :
    List Token × List Nat :=
  if (column : Int) ≤ (inBlock tokens columns true).indent then (tokens, columns)
  else (.blockMappingStart :: tokens, column :: columns)

theorem isGap_letter {c : Char} (h : isLetter c = true) : isGap c = false :=
  isGap_eq_false (by decide) h

theorem ne_of_letter {c d : Char} (h : isLetter c = true) (other : isLetter d = false) : c ≠ d := by
  rintro rfl
  simp [h] at other

theorem IsWord.begins {word : List Char} (h : IsWord word) :
    ∃ c others, word = c :: others ∧ isLetter c = true ∧
      Begins (word ++ ':' :: rest) ∧ NoMark column (word ++ ':' :: rest) := by
  obtain ⟨c, others, rfl⟩ := List.exists_cons_of_ne_nil h.nonempty
  have letter := h.letters c List.mem_cons_self
  exact ⟨c, others, rfl, letter,
    ⟨isGap_letter letter, ne_of_letter letter (by decide), ne_of_letter letter (by decide)⟩,
    .inr ⟨ne_of_letter letter (by decide), ne_of_letter letter (by decide),
      fun same => absurd same (ne_of_letter letter (by decide))⟩⟩

theorem result_plain_word {word : List Char} (isWord : IsWord word) (indent : Nat)
    (gap : isGap (front rest) = true) :
    result (ScalarText.plain false indent) (locateFrom line column offset (word ++ ':' :: rest)) =
      .ok ((String.ofList word, false),
        locateFrom line (column + word.length) (offset + byteLength word) (':' :: rest)) := by
  obtain ⟨c, others, rfl, letter, begins, noMark⟩ := @IsWord.begins column rest word isWord
  have unmarked := @NoMark.result_atDocumentMark line column offset _ noMark
  have isRun : ScalarText.IsRun (c :: others) :=
    ⟨fun d hd => isGap_letter (isWord.letters d hd), fun last =>
      ne_of_letter (isWord.letters ':' (List.mem_of_getLast? last)) (by decide) rfl⟩
  have ran := @ScalarText.result_plainRun line column offset (c :: others) (':' :: rest)
    ScalarText.Part.start isRun (.inr ⟨rfl, gap⟩)
  rw [ScalarText.Part.start, ScalarText.foldl_push_none, List.append_nil] at ran
  have notHash : c ≠ '#' := begins.notMark.1
  have solid : isBlank ':' = false ∧ isBreak ':' = false := by decide
  have step : result (ScalarText.plainStep indent ⟨[], .none, false⟩)
      (locateFrom line column offset (c :: others ++ ':' :: rest)) =
      .ok (some ⟨(c :: others).reverse, .none, true⟩, locateFrom line
        (column + (c :: others).length) (offset + byteLength (c :: others)) (':' :: rest)) := by
    rw [List.cons_append] at unmarked ran ⊢
    simp [ScalarText.plainStep, notHash, unmarked, ran, solid]
  have shorter : (locateFrom line (column + (c :: others).length)
        (offset + byteLength (c :: others)) (':' :: rest)).length <
      (locateFrom line column offset (c :: others ++ ':' :: rest)).length := by
    simp only [Cell.length_locateFrom, List.length_append, List.length_cons]
    omega
  have loop := (Reader.result_iterate_of_some step shorter).trans
    (Reader.result_iterate_of_none (by simp [ScalarText.plainStep]; rfl))
  rw [ScalarText.plain_eq, Reader.result_bind, Scan.iterate, ScalarText.Part.start, loop]
  simp [ScalarText.Gap.hasBreak, ScalarText.Gap.none]

/-- A word is remembered where a key may begin. -/
theorem result_step_word {word : List Char} (isWord : IsWord word)
    (inside : (inBlock tokens columns true).indent ≤ column) (gap : isGap (front rest) = true) :
    result (inBlock tokens columns true).step
        (locateFrom line column offset (word ++ ':' :: rest)) =
      .ok (some (remembering (.scalar (String.ofList word) .plain :: tokens) columns
        ⟨tokens.length, ⟨front word, line, column, offset⟩,
          decide ((inBlock tokens columns true).indent = column)⟩ false),
        locateFrom line (column + word.length) (offset + byteLength word) (':' :: rest)) := by
  obtain ⟨c, others, rfl, letter, begins, noMark⟩ := @IsWord.begins column rest word isWord
  have read := @result_plain_word line column offset rest (c :: others) isWord
    ((inBlock tokens columns true).indent + 1).toNat gap
  have notIndicator : Written.beginsAsIndicator (c :: others) = false := by
    have other (d : Char) : isLetter d = false → c ≠ d := ne_of_letter letter
    simp [Written.beginsAsIndicator, other, isLetter]
  rw [result_step_inBlock begins noMark inside]
  rw [List.cons_append] at read ⊢
  rw [List.tail_cons, scan_plain notIndicator (isGap_letter letter) rfl rfl]
  simp [plainScalar, saveCandidate_of_keyAllowed, read]
  rfl

variable {candidate : Candidate}

theorem dropStale_remembering {cell : Cell} (sameLine : candidate.cell.line = cell.line)
    (near : cell.offset ≤ candidate.cell.offset + 1024) :
    (remembering tokens columns candidate keyAllowed).dropStale cell =
      pure (remembering tokens columns candidate keyAllowed) := by
  simp [dropStale, remembering, sameLine, near, Option.filter]

/-- The token of a key and, if none is open at its column, that of a mapping are put before it. -/
theorem openBlock_insert {token : Token} (before : candidate.tokens = tokens.length) :
    ((remembering (token :: tokens) columns candidate false).insert candidate.tokens
        .key).openBlock candidate.cell.column candidate.tokens .blockMappingStart =
      remembering (token :: .key :: (openMapping tokens columns candidate.cell.column).1)
        (openMapping tokens columns candidate.cell.column).2 candidate false := by
  have inserted : (remembering (token :: tokens) columns candidate false).insert candidate.tokens
      .key = remembering (token :: .key :: tokens) columns candidate false := by
    simp [insert, remembering, before]
  have two : tokens.length + 1 + 1 - tokens.length = 2 := by omega
  rw [inserted, openBlock, openMapping, inFlow_remembering, indent_remembering]
  by_cases inside : (candidate.cell.column : Int) ≤ (inBlock tokens columns true).indent
  · rw [if_pos (.inr inside), if_pos inside]
  · have outside : ¬(false = true ∨
        (candidate.cell.column : Int) ≤ (inBlock (token :: .key :: tokens) columns false).indent) :=
      fun h => h.elim Bool.false_ne_true inside
    rw [if_neg outside, if_neg inside]
    simp [insert, remembering, before, two]

/-- What is remembered becomes a key when a colon comes. -/
theorem result_colon {token : Token} {cell : Cell} (before : candidate.tokens = tokens.length) :
    result ((remembering (token :: tokens) columns candidate false).colon cell)
        (locateFrom line column offset (':' :: rest)) =
      .ok (inBlock (.value :: token :: .key ::
          (openMapping tokens columns candidate.cell.column).1)
        (openMapping tokens columns candidate.cell.column).2 false,
        locateFrom line (column + 1) (offset + ':'.utf8Size) rest) := by
  have skipped := @Scan.result_skip line column offset ':' rest (by decide)
  have candidates : (remembering (token :: tokens) columns candidate false).candidates =
      [some candidate] := rfl
  simp only [colon, candidates, openBlock_insert before, Reader.result_bind, skipped,
    Reader.ok_bind, Reader.result_pure]
  rfl

/-- A word is a key by the colon behind it. -/
theorem continues_key {word : List Char} (isWord : IsWord word)
    (inside : (inBlock tokens columns true).indent ≤ column) (gap : isGap (front rest) = true) :
    Continues (inBlock tokens columns true) (locateFrom line column offset (word ++ ':' :: rest))
      (inBlock (.value :: .scalar (String.ofList word) .plain :: .key ::
        (openMapping tokens columns column).1) (openMapping tokens columns column).2 false)
      (locateFrom line (column + word.length + 1) (offset + byteLength word + ':'.utf8Size)
        rest) := by
  have short := isWord.short
  have nonempty : word.length ≠ 0 := fun h => isWord.nonempty (List.eq_nil_of_length_eq_zero h)
  -- two steps: the word, which may turn out to be a value, and the colon that makes it a key
  refine .trans (.of_step (result_step_word isWord inside gap) (by simp; omega))
    (.of_step ?_ (by simp))
  have begins : Begins (':' :: rest) := ⟨by rw [front_cons]; decide, by simp⟩
  rw [result_step begins.settled begins.notEnd (.inl (by omega))
    (dropStale_remembering rfl (by dsimp only; omega))
    (closeBlocks_of_le (inside.trans (by omega)))]
  simp [scan, gap, result_colon]

@[simp] theorem openMapping_cons (column : Nat) :
    openMapping tokens (column :: columns) column = (tokens, column :: columns) :=
  if_pos (Int.le_refl column)

theorem openMapping_of_lt (outside : (inBlock tokens columns true).indent < column) :
    openMapping tokens columns column = (.blockMappingStart :: tokens, column :: columns) :=
  if_neg (Int.not_le.mpr outside)

theorem lexes_key {word : List Char} (isWord : IsWord word)
    (inside : (inBlock tokens columns true).indent ≤ column) (gap : isGap (front rest) = true) :
    Lexes (inBlock tokens columns true) column (word ++ ':' :: rest)
      (inBlock (.value :: .scalar (String.ofList word) .plain :: .key ::
        (openMapping tokens columns column).1) (openMapping tokens columns column).2 false)
      (column + word.length + 1) rest :=
  fun line offset =>
    ⟨line, offset + byteLength word + ':'.utf8Size, continues_key isWord inside gap⟩

theorem closeBlocks_inBlock_cons {first : Nat} {limit : Int} (outside : limit < first) :
    (inBlock tokens (first :: columns) keyAllowed).closeBlocks limit =
      (inBlock (.blockEnd :: tokens) columns keyAllowed).closeBlocks limit := by
  simp [closeBlocks, inBlock, inFlow, outside, List.replicate_succ']

/-- A token to the left of a collection closes it. -/
theorem lexes_close {first : Nat} (outside : column < first) (settled : Settled text) :
    Lexes (inBlock tokens (first :: columns) keyAllowed) column text
      (inBlock (.blockEnd :: tokens) columns keyAllowed) column text := by
  refine fun line offset => ⟨line, offset, .of_step_eq ?_⟩
  have closed : (inBlock tokens (first :: columns) keyAllowed).closeBlocks column =
      (inBlock (.blockEnd :: tokens) columns keyAllowed).closeBlocks column :=
    closeBlocks_inBlock_cons (Int.ofNat_lt.mpr outside)
  rw [step_eq, step_eq]
  simp [result_skipSpace_of_settled settled, closed]

/-- At the end of a text the root is closed. -/
theorem tokensFrom_end {waiting : Lexer} {before : List Cell}
    (pends : Pends waiting before (inBlock tokens [0] true) (locateFrom line 0 offset [])) :
    ∃ last, tokensFrom waiting before = .ok (last, []) ∧ last.tokens = .blockEnd :: tokens := by
  have settled : Settled [] := ⟨by decide, by decide, by decide⟩
  have kept : (inBlock tokens [0] true).closeBlocks 0 = inBlock tokens [0] true :=
    @closeBlocks_of_le (inBlock tokens [0] true) 0 (Int.le_refl 0)
  have closed : (inBlock tokens [0] true).closeBlocks (-1) =
      inBlock (.blockEnd :: tokens) [] true := by
    rw [closeBlocks_inBlock_cons (by decide)]
    rfl
  have step : result (inBlock tokens [0] true).step (locateFrom line 0 offset []) =
      .ok (some (inBlock (.blockEnd :: tokens) [] false), []) := by
    rw [step_eq]
    simp [result_skipSpace_of_settled settled, kept, betweenDocuments, closed]
    rfl
  refine ⟨inBlock (.blockEnd :: tokens) [] false, ?_, rfl⟩
  have shorter : ([] : List Cell).length < before.length :=
    Nat.lt_of_lt_of_le (by simp) pends.2
  exact (Reader.result_iterate_of_some (pends.1.trans step) shorter).trans
    (Reader.result_iterate_of_none rfl)

end InBlock

end Lexer

end TypeDictionary.Yaml
