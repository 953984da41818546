import Mathlib.Algebra.Group.Int.Defs
import TypeDictionary.Proofs.Numeral
import TypeDictionary.Yaml.Datum
import TypeDictionary.Yaml.Render

/-!
# What written scalars say

The scalar of a text says that text, whatever the text looks like: it is written plain only if it
then reads like a text. The scalar of an integer is written plain and says the integer, since
decimal digits have no base mark and no superfluous zero in front.
-/

namespace TypeDictionary.Yaml

open Text (Numeral.IsNatural)

namespace Kind

theorem isNatural_toDigits (n : Nat) : Numeral.IsNatural (Nat.toDigits 10 n) :=
  ⟨Nat.toDigits_ne_nil, fun _ => Nat.isDigit_of_mem_toDigits (by decide) (Nat.le_refl 10)⟩

/-- The digits of a positive number do not begin with a zero. -/
theorem head?_toDigits_ne {n : Nat} (positive : 0 < n) :
    (Nat.toDigits 10 n).head? ≠ some '0' := by
  have nonzero : ∀ d < 10, 0 < d → Nat.digitChar d ≠ '0' := by decide
  induction n using Nat.strongRecOn with
  | ind n ih =>
      rw [Nat.toDigits_eq_if (by decide)]
      split
      · rename_i small
        simpa using nonzero n small positive
      · have front := ih (n / 10) (by omega) (by omega)
        cases same : Nat.toDigits 10 (n / 10) with
        | nil => exact absurd same Nat.toDigits_ne_nil
        | cons c rest =>
            rw [same] at front
            exact front

theorem hasLeadingZero_toDigits (n : Nat) : hasLeadingZero (Nat.toDigits 10 n) = false := by
  rcases Nat.eq_zero_or_pos n with rfl | positive
  · rfl
  · unfold hasLeadingZero
    split
    · rename_i same
      exact absurd (by rw [same]; rfl) (head?_toDigits_ne positive)
    · rfl

theorem magnitude?_toDigits (n : Nat) : magnitude? (Nat.toDigits 10 n) = some n := by
  have natural := isNatural_toDigits n
  have plain := hasLeadingZero_toDigits n
  have read := Text.Numeral.natural?_ten_eq_some_iff.mpr
    ⟨natural, Nat.ofDigitChars_ten_toDigits⟩
  unfold magnitude?
  split
  · rename_i same
    exact absurd (natural.digits 'x' (by simp [same])) (by decide)
  · rename_i same
    exact absurd (natural.digits 'o' (by simp [same])) (by decide)
  · rename_i same
    exact absurd (natural.digits 'b' (by simp [same])) (by decide)
  · rw [plain]
    exact read

/-- The decimal notation of an integer, with a minus sign if it is negative. -/
theorem toList_toString (n : Int) :
    (toString n).toList =
      if n < 0 then '-' :: Nat.toDigits 10 n.natAbs else Nat.toDigits 10 n.natAbs := by
  cases n with
  | ofNat m =>
      have written : toString (Int.ofNat m) = m.repr := rfl
      have notNegative : ¬Int.ofNat m < 0 := Int.not_lt.mpr (Int.natCast_nonneg m)
      rw [written, if_neg notNegative, Nat.repr_eq_ofList_toDigits, String.toList_ofList]
      rfl
  | negSucc m =>
      have written : toString (Int.negSucc m) = "-" ++ (m + 1).repr := rfl
      rw [written, if_pos (Int.negSucc_lt_zero m), String.toList_append]
      simp only [Nat.repr_eq_ofList_toDigits, String.toList_ofList]
      rfl

theorem integer?_toString {n : Int} (lower : -(2 ^ 127) ≤ n) (upper : n < 2 ^ 128) :
    integer? (toString n).toList = some n := by
  have natural := isNatural_toDigits n.natAbs
  have read := magnitude?_toDigits n.natAbs
  have inRange : decide (-(Int.pow 2 127) ≤ n ∧ n < Int.pow 2 128) = true :=
    decide_eq_true ⟨lower, upper⟩
  rw [toList_toString]
  split
  · have same : -(n.natAbs : Int) = n := by omega
    unfold integer?
    simp only [read, Option.bind_eq_bind, Option.bind_some, Option.pure_def, Option.map_some, same,
      Option.filter_some, inRange, if_true]
  · have same : (n.natAbs : Int) = n := by omega
    unfold integer?
    split
    · rename_i begins
      exact absurd (natural.digits '-' (by simp [begins])) (by decide)
    · rename_i begins
      exact absurd (natural.digits '+' (by simp [begins])) (by decide)
    · simp only [read, Option.map_some, Int.ofNat_eq_natCast, same, Option.filter_some, inRange,
        if_true]

/-- A word that is not in decimal notation is none of an integer. -/
theorem toString_ne {n : Int} {word : String} (h : word.toList.any Char.isDigit = false) :
    toString n ≠ word := by
  rintro rfl
  have natural := isNatural_toDigits n.natAbs
  obtain ⟨c, rest, same⟩ := List.exists_cons_of_ne_nil natural.nonempty
  have digit : c.isDigit = true := natural.digits c (by simp [same])
  rw [toList_toString, same] at h
  split at h <;> simp [digit] at h

theorem ofPlain_toString {n : Int} (lower : -(2 ^ 127) ≤ n) (upper : n < 2 ^ 128) :
    ofPlain (toString n) = integer n := by
  have notNull : ¬(toString n = "" ∨ toString n ∈ nullWords) := by
    rintro (same | same)
    · exact toString_ne (by decide) same
    · simp only [nullWords, List.mem_cons, List.not_mem_nil, or_false] at same
      rcases same with same | same | same | same <;> exact toString_ne (by decide) same
  have notBoolean : boolean? (toString n) = none := by
    unfold boolean?
    rw [if_neg, if_neg]
    all_goals
      rintro (same | same | same) <;> exact toString_ne (by decide) same
  rw [ofPlain, if_neg notNull, notBoolean]
  dsimp only
  rw [integer?_toString lower upper]

end Kind

namespace Datum

/-- A text is written so that it says itself. -/
@[simp] theorem ofNode?_ofString (written : String) :
    ofNode? (.ofString written) = some (text written) := by
  rw [Node.ofString, ofNode?, ofScalar?]
  split
  · rename_i plain
    have reads : Kind.ofPlain written = .text := by
      unfold Written.styleOf at plain
      split at plain
      · rename_i h
        exact h.1
      · split at plain <;> cases plain
    rw [reads]
    rfl
  · rfl

/-- An integer of 64 bits is written so that it says itself. -/
theorem ofNode?_ofInt {n : Int} (lower : -0x8000000000000000 ≤ n)
    (upper : n < 0x8000000000000000) : ofNode? (.ofInt n) = some (integer n) := by
  have reads : Kind.ofPlain (toString n) = .integer n :=
    Kind.ofPlain_toString (by omega) (by omega)
  rw [Node.ofInt, ofNode?, ofScalar?, if_pos rfl, reads, ofKind?, if_pos ⟨lower, by omega⟩]

@[simp] theorem ofNode?_ofInt_toInt (word : Int64) :
    ofNode? (.ofInt word.toInt) = some (integer word.toInt) :=
  ofNode?_ofInt word.le_toInt word.toInt_lt

end Datum

end TypeDictionary.Yaml
