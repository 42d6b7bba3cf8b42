import RootFinding.Proofs.Exact.RootMultiplicity

/-!
# The stable root of a quadratic

Either root of the discriminant leads to the roots of a quadratic, and the formula takes the one
that points away from `-b`: the product of its conjugate with `b` has no negative real part. So the
sum that the first root is read off is as long as the hypotenuse over both numbers at least,
whatever their phases are, and the first root is the larger one. The second root is a quotient by
the first, which is not zero.

All of this is about lengths in the plane, hence about the complex numbers, with any choice of
roots.
-/

namespace RootFinding.ClosedForm

open Bag Coefficient ExactArithmetic

section Plane

variable {b s : ℂ}

/-- Numbers that do not point away from each other do not cancel. -/
theorem sq_norm_add_sq_norm_le (aligned : 0 ≤ (starRingEnd ℂ b * s).re) :
    ‖b‖ ^ 2 + ‖s‖ ^ 2 ≤ ‖b + s‖ ^ 2 := by
  rw [mul_comm, ← Complex.inner] at aligned
  rw [norm_add_sq_real]
  linarith

/-- The difference of such numbers is not longer than their sum. -/
theorem norm_sub_le_norm_add_of_aligned (aligned : 0 ≤ (starRingEnd ℂ b * s).re) :
    ‖s - b‖ ≤ ‖b + s‖ := by
  rw [mul_comm, ← Complex.inner] at aligned
  rw [norm_sub_rev]
  refine (pow_le_pow_iff_left₀ (norm_nonneg _) (norm_nonneg _) two_ne_zero).mp ?_
  rw [norm_add_sq_real, norm_sub_sq_real]
  linarith

/-- Their quotients by the same number keep that order. -/
theorem norm_sub_div_le (aligned : 0 ≤ (starRingEnd ℂ b * s).re) (divisor : ℂ) :
    ‖(s - b) / divisor‖ ≤ ‖-(b + s) / divisor‖ := by
  rw [norm_div, norm_div, norm_neg]
  exact div_le_div_of_nonneg_right (norm_sub_le_norm_add_of_aligned aligned) (norm_nonneg _)

end Plane

variable {choice : RootChoice}

/-- The chosen root of the discriminant does not point away from `b`. -/
theorem chosenRoot_aligned (a b c : Chosen choice) : 0 ≤ re (conj b * chosenRoot a b c) := by
  rcases chosenRoot_cases a b c with ⟨kept, along⟩ | ⟨changed, away⟩
  · rw [kept]
    exact not_lt.mp along
  · rw [changed, mul_neg]
    exact neg_nonneg.mpr away.le

/-- The square roots that are not the principal ones. -/
noncomputable def oppositeRoots : RootChoice where
  squareRoot z := -sqrt z
  cubeRoot := cbrt
  squared z := (neg_mul_neg _ _).trans (sqrt_squared z)
  cubed := cbrt_cubed

end RootFinding.ClosedForm
