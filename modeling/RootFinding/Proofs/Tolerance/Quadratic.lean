import RootFinding.Proofs.Tolerance.Numbers
import RootFinding.Proofs.ClosedForm.Divisors

/-!
# The first root of a quadratic within a tolerance

The sign that is chosen for the root of the discriminant makes the first root zero only together
with that root and the linear coefficient; and the square root takes a discriminant close to the
positive axis for real, so that it is zero on a part of the imaginary axis. With a leading
coefficient of one the constant term would be negligible then.
-/

namespace RootFinding

open ClosedForm Coefficient

namespace Tolerant

variable {ε : ℝ}

/-- A number is zero exactly if its exact value is. -/
theorem toField_eq_zero {z : Complex (Tolerant ε)} : toField z = 0 ↔ z = 0 := by
  rw [← toField_zero, toField_injective.eq_iff]

/-- A product is not zero exactly if neither factor is. -/
theorem mul_ne_zero_iff {z w : Complex (Tolerant ε)} : z * w ≠ 0 ↔ z ≠ 0 ∧ w ≠ 0 := by
  rw [ne_eq, ← toField_eq_zero, toField_mul, mul_eq_zero, toField_eq_zero, toField_eq_zero, not_or]

/-- The double of what is not zero is not zero. -/
theorem mulReal_two_ne_zero {z : Complex (Tolerant ε)} (nonzero : z ≠ 0) : mulReal z 2.0 ≠ 0 := by
  rw [ne_eq, ← toField_eq_zero, toField_mulReal_tenths, mul_eq_zero, toField_eq_zero]
  norm_num [nonzero]

/-- A coefficient that is not negligible is not zero. -/
theorem ne_zero_of_kept (positive : 0 < ε) {z : Complex (Tolerant ε)}
    (kept : isNegligible z = false) : z ≠ 0 := by
  rw [ne_eq, ← toField_eq_zero, ← norm_eq_zero]
  exact (positive.trans_le (le_norm kept)).ne'

end Tolerant

namespace ClosedForm

open Tolerant

variable {ε : ℝ} (a b c : Complex (Tolerant ε))

/-- The chosen root is a root of the discriminant on the side of `b`. -/
theorem chosenRoot_spec :
    (chosenRoot a b c = sqrt (b * b - mulReal (a * c) 4.0) ∨
      chosenRoot a b c = -sqrt (b * b - mulReal (a * c) 4.0)) ∧
    0 ≤ (conj (toField b) * toField (chosenRoot a b c)).re := by
  refine ⟨(chosenRoot_cases a b c).imp And.left And.left, ?_⟩
  rcases chosenRoot_cases a b c with ⟨kept, along⟩ | ⟨changed, away⟩
  · rw [kept]
    exact not_lt.mp along
  · have negative : (conj (toField b) * toField (sqrt (b * b - mulReal (a * c) 4.0))).re < 0 := away
    rw [changed, toField_neg, mul_neg, Complex.neg_re]
    exact neg_nonneg.mpr negative.le

/-- The chosen root only cancels against `b` where both are zero. -/
theorem chosenRoot_eq_neg_iff :
    toField (chosenRoot a b c) = -toField b ↔
      b = 0 ∧ (sqrt (b * b - mulReal (a * c) 4.0) == 0) = true := by
  obtain ⟨isRoot, along⟩ := chosenRoot_spec a b c
  have zeroIff : (sqrt (b * b - mulReal (a * c) 4.0) == 0) = true ↔
      toField (chosenRoot a b c) = 0 := by
    rw [beq_iff, toField_zero]
    rcases isRoot with same | negated
    · rw [same]
    · rw [negated, toField_neg, neg_eq_zero]
  rw [zeroIff]
  constructor
  · intro cancels
    have square : conj (toField b) * toField b = ((‖toField b‖ ^ 2 : ℝ) : ℂ) := by
      push_cast
      exact Complex.conj_mul' (toField b)
    rw [cancels, mul_neg, square, Complex.neg_re, Complex.ofReal_re, neg_nonneg] at along
    have noLinearTerm : toField b = 0 :=
      norm_eq_zero.mp (pow_eq_zero_iff two_ne_zero |>.mp (le_antisymm along (sq_nonneg _)))
    exact ⟨toField_eq_zero.mp noLinearTerm, by rw [cancels, noLinearTerm, neg_zero]⟩
  · rintro ⟨rfl, noRoot⟩
    rw [noRoot, toField_zero, neg_zero]

variable {a}

/-- The first root of a quadratic is zero exactly if there is no linear term and the square root
takes the discriminant for zero. -/
theorem firstRoot_eq_zero_iff (positive : 0 < ε) (lead : a ≠ 0) :
    firstRoot a b c = 0 ↔
      b = 0 ∧ (toField (a * c)).re = 0 ∧ 4 * |(toField (a * c)).im| < ε := by
  have cancels : firstRoot a b c = 0 ↔ toField (chosenRoot a b c) = -toField b := by
    rw [← toField_eq_zero, firstRoot, toField_div, toField_neg, toField_add, div_eq_zero_iff,
      or_iff_left (toField_eq_zero.not.mpr (mulReal_two_ne_zero lead)), neg_eq_zero, add_comm,
      add_eq_zero_iff_eq_neg]
  rw [cancels, chosenRoot_eq_neg_iff]
  apply and_congr_right
  rintro rfl
  have discriminant : toField (0 * 0 - mulReal (a * c) 4.0) =
      ((-4 : ℝ) : ℂ) * toField (a * c) := by
    rw [toField_sub, toField_mul, toField_zero, toField_mulReal_tenths]
    push_cast
    ring
  rw [sqrt_eq_zero_iff positive, discriminant, Complex.re_ofReal_mul, Complex.im_ofReal_mul,
    abs_mul, abs_neg, abs_of_pos four_pos, mul_eq_zero, or_iff_right (by norm_num)]

/-- With a leading coefficient of one the first root is only zero if the constant term is
negligible. -/
theorem firstRoot_one_ne_zero (positive : 0 < ε) {c : Complex (Tolerant ε)}
    (kept : isNegligible c = false) : firstRoot 1 b c ≠ 0 := by
  intro vanishes
  have lead : (1 : Complex (Tolerant ε)) ≠ 0 := fun isZero => one_ne_zero (congrArg toField isZero)
  obtain ⟨_, onAxis, small⟩ := (firstRoot_eq_zero_iff b c positive lead).mp vanishes
  rw [toField_mul, toField_one, one_mul] at onAxis small
  have negligible : isNegligible c = true := by
    rw [isNegligible_iff, onAxis, abs_zero]
    exact ⟨positive, by linarith [abs_nonneg (toField c).im]⟩
  rw [kept] at negligible
  cases negligible

end ClosedForm

end RootFinding
