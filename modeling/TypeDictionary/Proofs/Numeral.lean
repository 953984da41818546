import TypeDictionary.Text.Numeral

/-!
# What numerals denote

`Denotes` gives the grammar of decimal numerals together with their numbers. Reading accepts exactly
the texts of the grammar and gives the number; the bounded form accepts those of them whose number
is one of 64 bits.
-/

namespace TypeDictionary.Text

namespace Numeral

/-- One or more ASCII digits. -/
structure IsNatural (digits : List Char) : Prop where
  nonempty : digits ≠ []
  digits : ∀ c ∈ digits, c.isDigit = true

/-- The number of a decimal numeral: digits, with at most one sign in front. -/
inductive Denotes : List Char → Int → Prop
  | unsigned {digits : List Char} (natural : IsNatural digits) :
      Denotes digits (Nat.ofDigitChars 10 digits 0)
  | plus {digits : List Char} (natural : IsNatural digits) :
      Denotes ('+' :: digits) (Nat.ofDigitChars 10 digits 0)
  | minus {digits : List Char} (natural : IsNatural digits) :
      Denotes ('-' :: digits) (-Nat.ofDigitChars 10 digits 0)

variable {digits text : List Char}

theorem isDigit_iff_le {c : Char} : c.isDigit = true ↔ '0' ≤ c ∧ c ≤ '9' := by
  rw [Char.isDigit_iff_toNat]
  exact Iff.rfl

/-- Letters are digits of bases above ten only. -/
theorem digit?_ten_eq_some_iff {c : Char} {d : Nat} :
    digit? 10 c = some d ↔ c.isDigit = true ∧ c.toNat - '0'.toNat = d := by
  rw [digit?, Option.filter_eq_some_iff, decide_eq_true_eq]
  constructor
  · rintro ⟨hvalue, small⟩
    split at hvalue
    · rename_i hdigit
      exact ⟨isDigit_iff_le.mpr hdigit, Option.some.inj hvalue⟩
    · split at hvalue
      · rw [Option.some.injEq] at hvalue
        omega
      · split at hvalue
        · rw [Option.some.injEq] at hvalue
          omega
        · cases hvalue
  · rintro ⟨hdigit, rfl⟩
    have atMost : c.toNat ≤ 57 := (Char.isDigit_iff_toNat.mp hdigit).2
    have zero : '0'.toNat = 48 := rfl
    rw [if_pos (isDigit_iff_le.mp hdigit)]
    exact ⟨rfl, by omega⟩

theorem continue?_ten_eq_some_iff {value n : Nat} :
    continue? 10 value digits = some n ↔
      (∀ c ∈ digits, c.isDigit = true) ∧ Nat.ofDigitChars 10 digits value = n := by
  induction digits generalizing value with
  | nil => simp [continue?, Nat.ofDigitChars]
  | cons c rest ih =>
      rw [continue?, Option.bind_eq_bind, Option.bind_eq_some_iff, Nat.ofDigitChars_cons,
        List.forall_mem_cons]
      simp only [ih, digit?_ten_eq_some_iff]
      constructor
      · rintro ⟨_, ⟨hc, rfl⟩, hrest, hvalue⟩
        exact ⟨⟨hc, hrest⟩, hvalue⟩
      · rintro ⟨⟨hc, hrest⟩, hvalue⟩
        exact ⟨_, ⟨hc, rfl⟩, hrest, hvalue⟩

theorem natural?_ten_eq_some_iff {n : Nat} :
    natural? 10 digits = some n ↔ IsNatural digits ∧ Nat.ofDigitChars 10 digits 0 = n := by
  cases digits with
  | nil =>
      constructor
      · rintro ⟨⟩
      · rintro ⟨natural, _⟩
        exact absurd rfl natural.nonempty
  | cons c rest =>
      have read : natural? 10 (c :: rest) = continue? 10 0 (c :: rest) := rfl
      rw [read, continue?_ten_eq_some_iff]
      constructor
      · rintro ⟨digits, hvalue⟩
        exact ⟨⟨List.cons_ne_nil c rest, digits⟩, hvalue⟩
      · rintro ⟨natural, hvalue⟩
        exact ⟨natural.digits, hvalue⟩

/-- A text of digits is read as such, for no sign is a digit. -/
theorem integer?_of_isNatural (natural : IsNatural digits) :
    integer? digits = (natural? 10 digits).map Int.ofNat := by
  unfold integer?
  split
  · exact absurd (natural.digits '+' List.mem_cons_self) (by decide)
  · exact absurd (natural.digits '-' List.mem_cons_self) (by decide)
  · rfl

theorem integer?_eq_some_iff {n : Int} : integer? text = some n ↔ Denotes text n := by
  constructor
  · intro h
    unfold integer? at h
    split at h
    all_goals
      obtain ⟨m, hm, rfl⟩ := Option.map_eq_some_iff.mp h
      obtain ⟨natural, rfl⟩ := natural?_ten_eq_some_iff.mp hm
    · exact .plus natural
    · exact .minus natural
    · exact .unsigned natural
  · rintro (natural | natural | natural)
    all_goals have read := natural?_ten_eq_some_iff.mpr ⟨natural, rfl⟩
    · rw [integer?_of_isNatural natural, read]
      rfl
    · rw [integer?, read]
      rfl
    · rw [integer?, read]
      rfl

theorem toInt64?_eq_some_iff {n : Int} {word : Int64} :
    toInt64? n = some word ↔ word.toInt = n := by
  unfold toInt64?
  split
  · rename_i inRange
    rw [Option.some.injEq]
    constructor
    · rintro rfl
      exact Int64.toInt_ofInt_of_le inRange.1 inRange.2
    · rintro rfl
      exact Int64.ofInt_toInt word
  · rename_i outside
    constructor
    · rintro ⟨⟩
    · rintro rfl
      exact absurd ⟨word.le_toInt, word.toInt_lt⟩ outside

theorem int64?_eq_some_iff {word : Int64} :
    int64? text = some word ↔ Denotes text word.toInt := by
  unfold int64?
  rw [Option.bind_eq_bind, Option.bind_eq_some_iff]
  simp only [integer?_eq_some_iff, toInt64?_eq_some_iff]
  constructor
  · rintro ⟨_, denotes, rfl⟩
    exact denotes
  · intro denotes
    exact ⟨_, denotes, rfl⟩

end Numeral

end TypeDictionary.Text
