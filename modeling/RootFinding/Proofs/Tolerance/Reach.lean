import RootFinding.Proofs.Tolerance.Numbers

/-!
# The square of negligible numbers

A number is negligible if it lies in an open square around the origin with sides along the axes. A
factor stretches that square, turns it and shrinks it: by how much is told by the sum of the parts
of the factor and of its inverse. Only the four units map the square to itself.
-/

namespace RootFinding

open Coefficient

namespace Tolerant

variable {ε : ℝ}

/-- Half the side of the least square around the origin, with sides along the axes, that holds a
number. -/
noncomputable def reach (z : ℂ) : ℝ := max |z.re| |z.im|

/-- The sum of the absolute values of the parts. -/
noncomputable def taxi (z : ℂ) : ℝ := |z.re| + |z.im|

/-- A factor that is not negative scales the reach. -/
theorem reach_smul {r : ℝ} (nonnegative : 0 ≤ r) (z : ℂ) : reach (r * z) = r * reach z := by
  rw [reach, reach, Complex.re_ofReal_mul, Complex.im_ofReal_mul, abs_mul, abs_mul,
    abs_of_nonneg nonnegative, mul_max_of_nonneg _ _ nonnegative]

/-- A product reaches no further than one factor does times the sum of the parts of the other. -/
theorem reach_mul_le (z k : ℂ) : reach (z * k) ≤ reach z * taxi k := by
  have reRe := mul_le_mul_of_nonneg_right (le_max_left |z.re| |z.im|) (abs_nonneg k.re)
  have imIm := mul_le_mul_of_nonneg_right (le_max_right |z.re| |z.im|) (abs_nonneg k.im)
  have reIm := mul_le_mul_of_nonneg_right (le_max_left |z.re| |z.im|) (abs_nonneg k.im)
  have imRe := mul_le_mul_of_nonneg_right (le_max_right |z.re| |z.im|) (abs_nonneg k.re)
  rw [reach, reach, taxi, mul_add]
  apply max_le
  · have bound := abs_sub (z.re * k.re) (z.im * k.im)
    rw [abs_mul, abs_mul] at bound
    rw [Complex.mul_re]
    linarith
  · have bound := abs_add_le (z.re * k.im) (z.im * k.re)
    rw [abs_mul, abs_mul] at bound
    rw [Complex.mul_im]
    linarith

/-- Some number of reach one reaches that far. -/
theorem exists_le_reach_mul (k : ℂ) : ∃ z, reach z ≤ 1 ∧ taxi k ≤ reach (z * k) := by
  have small (x : ℝ) : |(SignType.sign x : ℝ)| ≤ 1 := by
    rcases lt_trichotomy x 0 with negative | rfl | positive
    · simp [sign_neg negative]
    · simp
    · simp [sign_pos positive]
  refine ⟨⟨SignType.sign k.re, -SignType.sign k.im⟩, ?_, ?_⟩
  · rw [reach, abs_neg]
    exact max_le (small _) (small _)
  · have real : ((⟨SignType.sign k.re, -SignType.sign k.im⟩ : ℂ) * k).re = taxi k := by
      rw [Complex.mul_re, neg_mul, sub_neg_eq_add, sign_mul_self, sign_mul_self]
      rfl
    rw [reach, real]
    exact (le_abs_self _).trans (le_max_left _ _)

/-- A number is negligible exactly if its reach is within the tolerance. -/
theorem isNegligible_iff_reach (z : Complex (Tolerant ε)) :
    isNegligible z = true ↔ reach (toField z) < ε := by
  rw [isNegligible_iff, reach, max_lt_iff]

/-- A number is not negligible exactly if its reach comes up to the tolerance. -/
theorem kept_iff_reach (z : Complex (Tolerant ε)) :
    isNegligible z = false ↔ ε ≤ reach (toField z) := by
  rw [← not_lt, ← isNegligible_iff_reach, Bool.not_eq_true]

/-- A factor that takes no number out of the square of negligible ones has small parts. -/
theorem taxi_le_one_of_bounded (positive : 0 < ε) {k : ℂ}
    (bounded : ∀ z, reach z < ε → reach (z * k) < ε) : taxi k ≤ 1 := by
  by_contra long
  have long : 1 < taxi k := not_le.mp long
  obtain ⟨z, small, far⟩ := exists_le_reach_mul k
  have scale : 0 < ε / taxi k := div_pos positive (by linarith)
  have inside : reach ((ε / taxi k : ℝ) * z) < ε := by
    rw [reach_smul scale.le]
    calc ε / taxi k * reach z ≤ ε / taxi k * 1 := by gcongr
      _ = ε / taxi k := mul_one _
      _ < ε := div_lt_self positive long
  have stays := bounded _ inside
  rw [mul_assoc, reach_smul scale.le] at stays
  have leaves : ε ≤ ε / taxi k * reach (z * k) := by
    calc ε = ε / taxi k * taxi k := by field_simp
      _ ≤ ε / taxi k * reach (z * k) := by gcongr
  linarith

/-- The reach is not negative. -/
theorem reach_nonneg (z : ℂ) : 0 ≤ reach z := le_max_of_le_left (abs_nonneg z.re)

/-- Every complex number is the exact value of one with a tolerance. -/
theorem exists_toField (ε : ℝ) (z : ℂ) : ∃ c : Complex (Tolerant ε), toField c = z :=
  ⟨⟨z.re, z.im⟩, rfl⟩

/-- The parts of an inverse are small if the factor's are no more than its norm squared. -/
theorem taxi_inv_le_one_iff {k : ℂ} (nonzero : k ≠ 0) :
    taxi k⁻¹ ≤ 1 ↔ taxi k ≤ k.re * k.re + k.im * k.im := by
  have positive : 0 < k.re * k.re + k.im * k.im := by
    rw [← Complex.normSq_apply]
    exact Complex.normSq_pos.mpr nonzero
  have inverse : taxi k⁻¹ = taxi k / (k.re * k.re + k.im * k.im) := by
    rw [taxi, taxi, Complex.inv_re, Complex.inv_im, Complex.normSq_apply, abs_div, abs_div, abs_neg,
      abs_of_pos positive, add_div]
  rw [inverse, div_le_one positive]

/-- Two numbers that add up to no more than one, and to no more than their squares do, are zero and
one. -/
theorem eq_one_of_add_le {x y : ℝ} (xNonneg : 0 ≤ x) (yNonneg : 0 ≤ y) (small : x + y ≤ 1)
    (large : x + y ≤ x * x + y * y) (nonzero : 0 < x + y) : x = 1 ∧ y = 0 ∨ x = 0 ∧ y = 1 := by
  have product : x * y = 0 := by
    have square : (x + y) * (x + y) ≤ (x + y) * 1 := mul_le_mul_of_nonneg_left small nonzero.le
    have nonneg := mul_nonneg xNonneg yNonneg
    nlinarith
  rcases mul_eq_zero.mp product with rfl | rfl
  · refine Or.inr ⟨rfl, le_antisymm (by linarith) ?_⟩
    rw [zero_add] at nonzero
    exact le_of_mul_le_mul_left (by linarith) nonzero
  · refine Or.inl ⟨le_antisymm (by linarith) ?_, rfl⟩
    rw [add_zero] at nonzero
    exact le_of_mul_le_mul_left (by linarith) nonzero

/-- Opposite numbers reach equally far. -/
theorem reach_neg (z : ℂ) : reach (-z) = reach z := by
  rw [reach, reach, Complex.neg_re, Complex.neg_im, abs_neg, abs_neg]

/-- A quarter turn keeps the reach. -/
theorem reach_turn (z k : ℂ) (re : k.re = 0) (im : k.im = 1) : reach (z * k) = reach z := by
  rw [reach, reach, Complex.mul_re, Complex.mul_im, re, im, mul_zero, mul_one, mul_one, mul_zero,
    zero_sub, add_zero, abs_neg, max_comm]

end Tolerant

end RootFinding
