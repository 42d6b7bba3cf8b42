import RootFinding.Proofs.Exact.Arithmetic

/-!
# The complex field

The complex numbers over the real ones calculate exactly, with the principal square and cube roots
and a test for zero that is decided classically. So what is proved of exact arithmetic is about
numbers that there are. Nothing depends on the roots being the principal ones: with any choice among
the square and cube roots of each number the complex numbers calculate exactly as well.
-/

namespace RootFinding

open Coefficient

/-- The real numbers as scalars. They have no special values, and the tolerance is not used. -/
noncomputable instance : Scalar ℝ where
  decidableLT := inferInstance
  decidableLE := inferInstance
  abs x := |x|
  epsilon := 0
  infinity := 0
  largest := 0
  isNaN _ := false
  isFinite _ := true
  signBit x := decide (x < 0)

/-- The principal cube root of one. -/
noncomputable def cubeRootOfOne : ℂ := ⟨-1 / 2, √3 / 2⟩

open Classical in
/-- The complex numbers as coefficients. -/
noncomputable instance : Coefficient ℂ ℝ where
  ofParts x y := ⟨x, y⟩
  re z := RCLike.re z
  conj z := starRingEnd ℂ z
  mulReal z x := z * (x : ℂ)
  divReal z x := z / (x : ℂ)
  abs z := ‖z‖
  sqrt z := z ^ ((2 : ℕ) : ℂ)⁻¹
  cbrt z := z ^ ((3 : ℕ) : ℂ)⁻¹
  omega := cubeRootOfOne
  isNegligible z := decide (z = 0)

/-- A literal with one decimal stands for that many tenths. -/
theorem literal_tenths (n : ℕ) : (OfScientific.ofScientific n true 1 : ℝ) = n / 10 := by
  rw [NNRatCast.ofScientific_eq_ite, if_pos rfl, NNRat.divNat_eq_div]
  simp

/-- It does so among the complex numbers, too. -/
theorem literal_tenths_complex (n : ℕ) :
    ((OfScientific.ofScientific n true 1 : ℝ) : ℂ) = n / 10 := by
  rw [literal_tenths]
  push_cast
  rfl

instance : ExactArithmetic ℂ where
  mulReal_tenths z n := congrArg (z * ·) (literal_tenths_complex n)
  divReal_tenths z n := congrArg (z / ·) (literal_tenths_complex n)
  abs_zero_le z := by
    change ‖(0 : ℂ)‖ ≤ ‖z‖
    rw [norm_zero]
    exact norm_nonneg z
  eq_zero_of_abs_le {z} smaller := by
    change ‖z‖ ≤ ‖(0 : ℂ)‖ at smaller
    rw [norm_zero] at smaller
    exact norm_le_zero_iff.mp smaller
  omega_sum := by
    change 1 + cubeRootOfOne + starRingEnd ℂ cubeRootOfOne = 0
    apply Complex.ext
    · simp [cubeRootOfOne]
      norm_num
    · simp [cubeRootOfOne]
  omega_mul_conj := by
    change cubeRootOfOne * starRingEnd ℂ cubeRootOfOne = 1
    apply Complex.ext
    · simp [cubeRootOfOne]
      ring_nf
      norm_num
    · simp [cubeRootOfOne]
      ring
  cbrt_cubed z := by
    have cubed := Complex.cpow_nat_inv_pow z (n := 3) (by norm_num)
    rw [← pow_three']
    exact cubed
  sqrt_squared z := by
    have squared := Complex.cpow_nat_inv_pow z (n := 2) (by norm_num)
    rw [← pow_two]
    exact squared
  isNegligible_iff z := decide_eq_true_iff

section Choices

/-- A square root and a cube root of every complex number. -/
structure RootChoice where
  squareRoot : ℂ → ℂ
  cubeRoot : ℂ → ℂ
  squared (z : ℂ) : squareRoot z * squareRoot z = z
  cubed (z : ℂ) : cubeRoot z * cubeRoot z * cubeRoot z = z

/-- The complex numbers with these roots. -/
def Chosen (_choice : RootChoice) : Type := ℂ

variable {choice : RootChoice}

noncomputable instance : Field (Chosen choice) := inferInstanceAs (Field ℂ)

instance : CharZero (Chosen choice) := inferInstanceAs (CharZero ℂ)

noncomputable instance : BEq (Chosen choice) := inferInstanceAs (BEq ℂ)

instance : LawfulBEq (Chosen choice) := inferInstanceAs (LawfulBEq ℂ)

noncomputable instance : Coefficient (Chosen choice) ℝ where
  ofParts := ofParts (K := ℂ)
  re := re (K := ℂ)
  conj := conj (K := ℂ)
  mulReal := mulReal (K := ℂ)
  divReal := divReal (K := ℂ)
  abs := abs (K := ℂ)
  sqrt := choice.squareRoot
  cbrt := choice.cubeRoot
  omega := omega (K := ℂ)
  isNegligible := isNegligible (K := ℂ)

instance : ExactArithmetic (Chosen choice) :=
  have principal : ExactArithmetic ℂ := inferInstance
  { mulReal_tenths := principal.mulReal_tenths
    divReal_tenths := principal.divReal_tenths
    abs_zero_le := principal.abs_zero_le
    eq_zero_of_abs_le := principal.eq_zero_of_abs_le
    omega_sum := principal.omega_sum
    omega_mul_conj := principal.omega_mul_conj
    cbrt_cubed := choice.cubed
    sqrt_squared := choice.squared
    isNegligible_iff := principal.isNegligible_iff }

end Choices

end RootFinding
