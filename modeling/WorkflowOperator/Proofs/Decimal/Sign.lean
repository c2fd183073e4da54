import Mathlib.Algebra.Order.Field.Power
import Mathlib.Algebra.Order.Field.Rat
import Mathlib.Tactic.Lemma
import Mathlib.Tactic.Positivity
import WorkflowOperator.Decimal.Binary64

/-!
# The signs of binary numbers

A finite number stands for a rational one. It compares as at least zero if that one is; of the
infinities the positive one does, and of the values that are no number none.
-/

namespace WorkflowOperator.Binary64

/-- What a finite number stands for. -/
def value (x : Binary64) : ℚ :=
  (if x.isNegative then -1 else 1) * (x.significand.1 * 2 ^ x.significand.2)

/-- Whether a number is at least zero. -/
structure IsAtLeastZero (x : Binary64) : Prop where
  number : x.isNaN = false
  infinite : x.isInfinite = true → x.isNegative = false
  finite : x.isInfinite = false → 0 ≤ x.value

lemma significand_eq_zero_iff (x : Binary64) : x.significand.1 = 0 ↔ x.isZero = true := by
  have hsplit : x.magnitude >>> 52 = x.magnitude / 2 ^ 52 := Nat.shiftRight_eq_div_pow _ _
  have hunit : (1 <<< 52 : Nat) = 2 ^ 52 := rfl
  have hmagnitude := Nat.div_add_mod x.magnitude (2 ^ 52)
  unfold significand isZero
  rw [beq_iff_eq]
  dsimp only
  rw [hsplit, hunit]
  split
  next hfield => omega
  next hfield =>
    have hpos : 0 < x.magnitude / 2 ^ 52 := Nat.pos_of_ne_zero hfield
    refine iff_of_false (by omega) ?_
    intro hzero
    rw [hzero] at hfield
    exact hfield rfl

lemma value_nonneg_iff (x : Binary64) : 0 ≤ x.value ↔ x.isNegative = false ∨ x.isZero = true := by
  have hpow : (0 : ℚ) < 2 ^ x.significand.2 := by positivity
  unfold value
  cases hsign : x.isNegative with
  | false => simpa using by positivity
  | true =>
    have hproduct : (x.significand.1 : ℚ) * 2 ^ x.significand.2 ≤ 0 ↔ x.significand.1 = 0 := by
      constructor
      · intro hle
        by_contra hne
        have hsome : (0 : ℚ) < x.significand.1 := Nat.cast_pos.mpr (Nat.pos_of_ne_zero hne)
        exact absurd (mul_pos hsome hpow) hle.not_gt
      · intro hzero
        rw [hzero, Nat.cast_zero, zero_mul]
    rw [if_pos rfl, neg_one_mul, neg_nonneg, hproduct, significand_eq_zero_iff]
    simp

lemma isNonnegative_iff (x : Binary64) : x.isNonnegative = true ↔ x.IsAtLeastZero := by
  have hnonzero : x.isInfinite = true → x.isZero = false := by
    intro hinfinite
    rw [isInfinite, beq_iff_eq] at hinfinite
    rw [isZero, hinfinite]
    rfl
  simp only [isNonnegative, Bool.and_eq_true, Bool.not_eq_true', Bool.or_eq_true]
  constructor
  · rintro ⟨hnumber, hsign⟩
    refine ⟨hnumber, fun hinfinite => ?_, fun _ => x.value_nonneg_iff.mpr hsign⟩
    exact hsign.resolve_right (by simp [hnonzero hinfinite])
  · rintro ⟨hnumber, hinfinite, hfinite⟩
    refine ⟨hnumber, ?_⟩
    cases hcase : x.isInfinite with
    | true => exact Or.inl (hinfinite hcase)
    | false => exact x.value_nonneg_iff.mp (hfinite hcase)

end WorkflowOperator.Binary64
