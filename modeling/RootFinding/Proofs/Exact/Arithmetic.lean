import Mathlib
import RootFinding.Coefficient

/-!
# Exact arithmetic

What the closed forms assume of their coefficients when nothing is rounded: a field of
characteristic zero in which the literals are what they say, moduli that tell zero from everything
else, a primitive cube root of one, and some square and cube root of every number. Which roots these
are is left open, and nothing is asked of the order of moduli beyond zero.
-/

namespace RootFinding

open Coefficient

/-- Coefficients that calculate without rounding. -/
class ExactArithmetic (K : Type) {R : Type} [Field K] [Scalar R] [Coefficient K R] : Prop where
  /-- A literal with one decimal is a number of tenths. -/
  mulReal_tenths (z : K) (n : Nat) : mulReal z (OfScientific.ofScientific n true 1) = z * (n / 10)
  divReal_tenths (z : K) (n : Nat) : divReal z (OfScientific.ofScientific n true 1) = z / (n / 10)
  abs_zero_le (z : K) : abs (0 : K) ≤ abs z
  eq_zero_of_abs_le {z : K} : abs z ≤ abs (0 : K) → z = 0
  omega_sum : (1 : K) + omega + conj omega = 0
  omega_mul_conj : (omega : K) * conj omega = 1
  cbrt_cubed (z : K) : cbrt z * cbrt z * cbrt z = z
  sqrt_squared (z : K) : sqrt z * sqrt z = z
  isNegligible_iff (z : K) : isNegligible z = true ↔ z = 0

namespace ExactArithmetic

variable {K R : Type} [Field K] [Scalar R] [Coefficient K R] [ExactArithmetic K]

/-- What does not count as zero is what is not zero. -/
theorem isNegligible_eq_false_iff {z : K} : isNegligible z = false ↔ z ≠ 0 := by
  rw [← Bool.not_eq_true, isNegligible_iff]

/-- Only zero has the square root zero. -/
theorem sqrt_ne_zero {z : K} (nonzero : z ≠ 0) : sqrt z ≠ 0 := by
  intro vanishes
  have squared : sqrt z * sqrt z = z := sqrt_squared z
  rw [vanishes, mul_zero] at squared
  exact nonzero squared.symm

/-- Dividing by the cube root of one is multiplying by its conjugate. -/
theorem div_omega_mul (x z : K) : x / (omega * z) = conj omega * (x / z) := by
  have inverse : (omega : K)⁻¹ = conj omega := inv_eq_of_mul_eq_one_right omega_mul_conj
  rw [div_mul_eq_div_div, div_eq_inv_mul x, inverse, mul_div_assoc]

/-- Dividing by the conjugate of the cube root of unity multiplies by the root. -/
theorem div_conj_omega_mul (x z : K) : x / (conj omega * z) = omega * (x / z) := by
  have inverse : (conj omega : K)⁻¹ = omega := inv_eq_of_mul_eq_one_left omega_mul_conj
  rw [div_mul_eq_div_div, div_eq_inv_mul x, inverse, mul_div_assoc]

end ExactArithmetic

end RootFinding
