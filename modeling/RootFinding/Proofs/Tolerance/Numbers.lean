import Mathlib
import RootFinding.Proofs.Constants
import RootFinding.Proofs.Exact.ComplexField

/-!
# Exact numbers with a tolerance

Real numbers that calculate without rounding while every inexact test keeps its tolerance. The
complex numbers over them are the complex field, except that a number counts as zero when both parts
are within the tolerance, and that a square root takes a number close to the positive axis for real.
-/

namespace RootFinding

open Coefficient

/-- The cube root with the sign of its argument. -/
noncomputable def realCbrt (x : ℝ) : ℝ := SignType.sign x * |x| ^ ((3 : ℕ) : ℝ)⁻¹

/-- The functions of a real number, with this tolerance. -/
@[reducible]
noncomputable def tolerantFunctions (tolerance : ℝ) : RealFunctions ℝ :=
  { (inferInstance : Scalar ℝ) with
    epsilon := tolerance
    sqrt := Real.sqrt
    cbrt := realCbrt
    exp := Real.exp
    log := Real.log
    sin := Real.sin
    cos := Real.cos
    sinh := Real.sinh
    cosh := Real.cosh
    pow := fun x y => x ^ y
    hypot := fun x y => √(x ^ 2 + y ^ 2)
    atan2 := fun y x => (⟨x, y⟩ : ℂ).arg
    ln10 := Real.log 10 }

/-- The real numbers with this tolerance. -/
def Tolerant (_tolerance : ℝ) : Type := ℝ

noncomputable instance {tolerance : ℝ} : RealFunctions (Tolerant tolerance) :=
  tolerantFunctions tolerance

namespace Tolerant

variable {ε : ℝ}

/-- The real number that a scalar is. -/
def toReal (x : Tolerant ε) : ℝ := x

/-- The element of the complex field with the same parts. -/
def toField (z : Complex (Tolerant ε)) : ℂ := ⟨toReal z.re, toReal z.im⟩

/-- A number with a tolerance is known by its exact value. -/
theorem toField_injective : Function.Injective (toField : Complex (Tolerant ε) → ℂ) := by
  intro z w same
  have sameRe : z.re = w.re := congrArg (fun u : ℂ => u.re) same
  have sameIm : z.im = w.im := congrArg (fun u : ℂ => u.im) same
  cases z
  cases w
  rw [Complex.mk.injEq]
  exact ⟨sameRe, sameIm⟩

/-- Zero is exact. -/
@[simp] theorem toField_zero : toField (0 : Complex (Tolerant ε)) = 0 := rfl

/-- One is exact. -/
@[simp] theorem toField_one : toField (1 : Complex (Tolerant ε)) = 1 := rfl

/-- Negation is exact. -/
@[simp] theorem toField_neg (z : Complex (Tolerant ε)) : toField (-z) = -toField z := rfl

/-- Addition is exact. -/
@[simp] theorem toField_add (z w : Complex (Tolerant ε)) :
    toField (z + w) = toField z + toField w := rfl

/-- Subtraction is exact. -/
@[simp] theorem toField_sub (z w : Complex (Tolerant ε)) :
    toField (z - w) = toField z - toField w := rfl

/-- Multiplication is exact. -/
@[simp] theorem toField_mul (z w : Complex (Tolerant ε)) :
    toField (z * w) = toField z * toField w := rfl

/-- Dividing by the conjugate divided twice by the modulus is dividing. -/
@[simp] theorem toField_div (z w : Complex (Tolerant ε)) :
    toField (z / w) = toField z / toField w := by
  have inverse : toField w.inverse = (toField w)⁻¹ := by
    have modulus : √((toField w).re ^ 2 + (toField w).im ^ 2) *
        √((toField w).re ^ 2 + (toField w).im ^ 2) =
          (toField w).re * (toField w).re + (toField w).im * (toField w).im := by
      rw [Real.mul_self_sqrt (by positivity)]
      ring
    apply Complex.ext
    · rw [Complex.inv_re, Complex.normSq_apply, ← modulus, ← div_div]
      rfl
    · rw [Complex.inv_im, Complex.normSq_apply, ← modulus, ← div_div]
      rfl
  change toField z * toField w.inverse = _
  rw [inverse, div_eq_mul_inv]

/-- Conjugation is exact. -/
@[simp] theorem toField_conj (z : Complex (Tolerant ε)) :
    toField (conj z) = conj (toField z) := rfl

/-- The cube root of unity is exact. -/
@[simp] theorem toField_omega : toField (omega : Complex (Tolerant ε)) = omega := by
  apply Complex.ext
  · change -(0.5 : ℝ) = -1 / 2
    norm_num
  · change √(3.0 : ℝ) * 0.5 = √3 / 2
    norm_num
    ring

/-- The product with a decimal is exact. -/
@[simp] theorem toField_mulReal_tenths (z : Complex (Tolerant ε)) (n : ℕ) :
    toField (mulReal z (OfScientific.ofScientific n true 1)) = toField z * (n / 10) := by
  have parts : toField (mulReal z (OfScientific.ofScientific n true 1)) =
      ⟨(toField z).re * (OfScientific.ofScientific n true 1 : ℝ),
        (toField z).im * (OfScientific.ofScientific n true 1 : ℝ)⟩ := rfl
  rw [parts, ← literal_tenths_complex]
  apply Complex.ext
  · simp
  · simp

/-- The quotient by a decimal is exact. -/
@[simp] theorem toField_divReal_tenths (z : Complex (Tolerant ε)) (n : ℕ) :
    toField (divReal z (OfScientific.ofScientific n true 1)) = toField z / (n / 10) := by
  have parts : toField (divReal z (OfScientific.ofScientific n true 1)) =
      ⟨(toField z).re / (OfScientific.ofScientific n true 1 : ℝ),
        (toField z).im / (OfScientific.ofScientific n true 1 : ℝ)⟩ := rfl
  rw [parts, ← literal_tenths_complex]
  apply Complex.ext
  · exact (Complex.div_ofReal_re _ _).symm
  · exact (Complex.div_ofReal_im _ _).symm

/-- The modulus is exact. -/
theorem abs_eq (z : Complex (Tolerant ε)) : (abs z : Tolerant ε) = ‖toField z‖ := by
  rw [Complex.norm_eq_sqrt_sq_add_sq]
  rfl

/-- A number counts as zero if both parts are within the tolerance. -/
theorem isNegligible_iff (z : Complex (Tolerant ε)) :
    isNegligible z = true ↔ |(toField z).re| < ε ∧ |(toField z).im| < ε := by
  change (Scalar.isNegligible z.re && Scalar.isNegligible z.im) = true ↔ _
  rw [Bool.and_eq_true]
  unfold Scalar.isNegligible
  rw [decide_eq_true_iff, decide_eq_true_iff]
  rfl

/-- A real number counts as zero if it is within the tolerance. -/
theorem isNegligible_iff_of_real (positive : 0 < ε) {z : Complex (Tolerant ε)} {x : ℝ}
    (same : toField z = x) : isNegligible z = true ↔ |x| < ε := by
  rw [isNegligible_iff, same, Complex.ofReal_re, Complex.ofReal_im, abs_zero]
  exact and_iff_left positive

/-- A number that does not count as zero has at least the tolerance for a modulus. -/
theorem le_norm {z : Complex (Tolerant ε)} (kept : isNegligible z = false) : ε ≤ ‖toField z‖ := by
  by_contra smaller
  have negligible : isNegligible z = true := (isNegligible_iff z).mpr
    ⟨(Complex.abs_re_le_norm _).trans_lt (not_le.mp smaller),
      (Complex.abs_im_le_norm _).trans_lt (not_le.mp smaller)⟩
  rw [kept] at negligible
  cases negligible

/-- A number that counts as zero has less than twice the tolerance for a modulus. -/
theorem norm_lt {z : Complex (Tolerant ε)} (negligible : isNegligible z = true) :
    ‖toField z‖ < 2 * ε := by
  obtain ⟨smallRe, smallIm⟩ := (isNegligible_iff z).mp negligible
  have bound := Complex.norm_le_abs_re_add_abs_im (toField z)
  linarith

section Roots

/-- Scalars are equal exactly if their exact values are. -/
theorem beq_scalar_iff {x y : Tolerant ε} : (x == y) = true ↔ toReal x = toReal y :=
  @beq_iff_eq ℝ _ _ (toReal x) (toReal y)

/-- A value with the sign of another. -/
theorem signedLike_cases (sign x : Tolerant ε) :
    toReal sign < 0 ∧ toReal (Complex.signedLike sign x) = -toReal x ∨
      0 ≤ toReal sign ∧ toReal (Complex.signedLike sign x) = toReal x := by
  unfold Complex.signedLike
  by_cases negative : toReal sign < 0
  · have signed : Scalar.signBit sign = true :=
      show decide (toReal sign < 0) = true from decide_eq_true negative
    rw [if_pos signed]
    exact Or.inl ⟨negative, rfl⟩
  · have unsigned : ¬Scalar.signBit sign = true := fun signed => negative (of_decide_eq_true signed)
    rw [if_neg unsigned]
    exact Or.inr ⟨not_lt.mp negative, rfl⟩

/-- Polar coordinates are taken exactly. -/
theorem toField_ofPolar (modulus angle : Tolerant ε) :
    toField (Complex.ofPolar modulus angle) =
      ⟨toReal modulus * Real.cos (toReal angle), toReal modulus * Real.sin (toReal angle)⟩ := rfl

/-- A number of polar form has its modulus. -/
theorem norm_ofPolar (modulus angle : Tolerant ε) :
    ‖toField (Complex.ofPolar modulus angle)‖ = |toReal modulus| := by
  have squares : (toReal modulus * Real.cos (toReal angle)) ^ 2 +
      (toReal modulus * Real.sin (toReal angle)) ^ 2 = toReal modulus ^ 2 := by
    linear_combination toReal modulus ^ 2 * Real.cos_sq_add_sin_sq (toReal angle)
  rw [toField_ofPolar, Complex.norm_eq_sqrt_sq_add_sq, squares, Real.sqrt_sq_eq_abs]

/-- Half the angle and the root of the modulus give a square root. -/
theorem ofPolar_half_squared {w : ℂ} {modulus angle : Tolerant ε} (isRoot : toReal modulus = √‖w‖)
    (isHalf : toReal angle = w.arg / 2) : toField (Complex.ofPolar modulus angle) ^ 2 = w := by
  have squared : toReal modulus * toReal modulus = ‖w‖ := by
    rw [isRoot]
    exact Real.mul_self_sqrt (norm_nonneg w)
  have sameRe := Complex.norm_mul_cos_arg w
  have sameIm := Complex.norm_mul_sin_arg w
  have double : w.arg = 2 * toReal angle := by
    rw [isHalf]
    ring
  rw [double, Real.cos_two_mul'] at sameRe
  rw [double, Real.sin_two_mul] at sameIm
  rw [toField_ofPolar, pow_two]
  apply Complex.ext
  · rw [Complex.mul_re, ← sameRe, ← squared]
    ring
  · rw [Complex.mul_im, ← sameIm, ← squared]
    ring

/-- A number on a diagonal, on the side of `y` and with half the size of `y` as the square of each
part, is a square root of `y` on the imaginary axis. -/
theorem diagonal_squared {x y : Tolerant ε} (half : toReal x * toReal x = |toReal y| / 2) :
    toField ⟨x, Complex.signedLike y x⟩ ^ 2 = ⟨0, toReal y⟩ := by
  rw [pow_two]
  rcases signedLike_cases y x with ⟨below, signed⟩ | ⟨above, unsigned⟩
  · have parts : toField ⟨x, Complex.signedLike y x⟩ = ⟨toReal x, -toReal x⟩ := by
      rw [toField, signed]
    rw [abs_of_neg below] at half
    rw [parts]
    apply Complex.ext
    · rw [Complex.mul_re]
      ring
    · rw [Complex.mul_im]
      linear_combination -2 * half
  · have parts : toField ⟨x, Complex.signedLike y x⟩ = ⟨toReal x, toReal x⟩ := by
      rw [toField, unsigned]
    rw [abs_of_nonneg above] at half
    rw [parts]
    apply Complex.ext
    · rw [Complex.mul_re]
      ring
    · rw [Complex.mul_im]
      linear_combination 2 * half

/-- Off the real axis the square root is exact. -/
theorem sqrtSigned_squared {z : Complex (Tolerant ε)} (notReal : (toField z).im ≠ 0) :
    toField z.sqrtSigned ^ 2 = toField z := by
  have notRealHere : ¬(z.im == 0) = true := fun isReal => notReal (beq_scalar_iff.mp isReal)
  unfold Complex.sqrtSigned
  rw [if_neg notRealHere]
  split
  · next imaginary =>
    have noRealPart : (toField z).re = 0 := beq_scalar_iff.mp imaginary
    have half : toReal (RealFunctions.sqrt (Scalar.abs z.im / 2.0) : Tolerant ε) *
        toReal (RealFunctions.sqrt (Scalar.abs z.im / 2.0) : Tolerant ε) =
          |(toField z).im| / 2 := by
      change √(|(toField z).im| / 2.0) * √(|(toField z).im| / 2.0) = _
      rw [Real.mul_self_sqrt (by positivity)]
      norm_num
    have onAxis : toField z = ⟨0, toReal z.im⟩ := Complex.ext noRealPart rfl
    exact (diagonal_squared half).trans onAxis.symm
  · apply ofPolar_half_squared
    · rw [← abs_eq]
      rfl
    · change (toField z).arg / 2.0 = (toField z).arg / 2
      norm_num

/-- A square root is that of the real part, for a number within the tolerance of the positive axis,
and otherwise exact. -/
theorem sqrt_cases (positive : 0 < ε) (z : Complex (Tolerant ε)) :
    |(toField z).im| < ε ∧ 0 ≤ (toField z).re ∧ toField (sqrt z) = (√(toField z).re : ℝ) ∨
      ¬(|(toField z).im| < ε ∧ 0 ≤ (toField z).re) ∧ toField (sqrt z) ^ 2 = toField z := by
  have isRealIff : z.isReal = true ↔ |(toField z).im| < ε := decide_eq_true_iff
  have isPositiveIff : decide (0 ≤ z.re) = true ↔ 0 ≤ (toField z).re := decide_eq_true_iff
  change _ ∧ _ ∧ toField z.sqrt = _ ∨ _ ∧ toField z.sqrt ^ 2 = toField z
  unfold Complex.sqrt
  split
  · next nearAxis =>
    rw [Bool.and_eq_true, isRealIff, isPositiveIff] at nearAxis
    exact Or.inl ⟨nearAxis.1, nearAxis.2, rfl⟩
  · next farOff =>
    rw [Bool.and_eq_true, isRealIff, isPositiveIff] at farOff
    refine Or.inr ⟨farOff, ?_⟩
    split
    · next isReal =>
      have noImaginaryPart : (toField z).im = 0 := beq_scalar_iff.mp isReal
      have negativePart : (toField z).re < 0 := by
        by_contra nonnegative
        exact farOff ⟨by rwa [noImaginaryPart, abs_zero], not_lt.mp nonnegative⟩
      have squared : √(-(toField z).re) * √(-(toField z).re) = -(toField z).re :=
        Real.mul_self_sqrt (by linarith)
      have parts : toField ⟨0, RealFunctions.sqrt (-z.re)⟩ = ⟨0, √(-(toField z).re)⟩ := rfl
      rw [parts, pow_two]
      apply Complex.ext
      · rw [Complex.mul_re]
        linear_combination -squared
      · rw [Complex.mul_im, noImaginaryPart]
        ring
    · next notReal =>
      apply sqrtSigned_squared
      intro noImaginaryPart
      exact notReal (beq_scalar_iff.mpr noImaginaryPart)

/-- The square root of a number that does not count as zero is no smaller than the root of the
tolerance. -/
theorem le_normSq_sqrt (positive : 0 < ε) {z : Complex (Tolerant ε)}
    (kept : isNegligible z = false) : ε ≤ ‖toField (sqrt z)‖ ^ 2 := by
  rcases sqrt_cases positive z with ⟨nearAxis, nonnegative, root⟩ | ⟨_, squared⟩
  · have large : ε ≤ (toField z).re := by
      by_contra smaller
      have negligible : isNegligible z = true := by
        rw [isNegligible_iff, abs_of_nonneg nonnegative]
        exact ⟨not_le.mp smaller, nearAxis⟩
      rw [kept] at negligible
      cases negligible
    rw [root, Complex.norm_real, Real.norm_eq_abs, sq_abs, Real.sq_sqrt nonnegative]
    exact large
  · rw [← norm_pow, squared]
    exact le_norm kept

/-- Numbers are equal exactly if their exact values are. -/
theorem beq_iff {z w : Complex (Tolerant ε)} : (z == w) = true ↔ toField z = toField w := by
  change (z.re == w.re && z.im == w.im) = true ↔ _
  rw [Bool.and_eq_true, beq_scalar_iff, beq_scalar_iff]
  exact (Complex.ext_iff (z := toField z) (w := toField w)).symm

instance : LawfulBEq (Complex (Tolerant ε)) where
  eq_of_beq same := toField_injective (beq_iff.mp same)
  rfl := beq_iff.mpr rfl

/-- Up to a tolerance of one, zero and one are what a search relies on. -/
theorem standardConstants (small : ε ≤ 1) : StandardConstants (Complex (Tolerant ε)) where
  zero_beq_zero := beq_self_eq_true 0
  isNegligible_one := by
    rw [← Bool.not_eq_true, isNegligible_iff, toField_one]
    rintro ⟨smaller, _⟩
    rw [Complex.one_re, abs_one] at smaller
    exact absurd smaller (not_lt.mpr small)

/-- The square root vanishes exactly on the part of the imaginary axis within the tolerance. -/
theorem sqrt_eq_zero_iff (positive : 0 < ε) (z : Complex (Tolerant ε)) :
    (sqrt z == 0) = true ↔ (toField z).re = 0 ∧ |(toField z).im| < ε := by
  rw [beq_iff, toField_zero]
  rcases sqrt_cases positive z with ⟨nearAxis, nonnegative, root⟩ | ⟨farOff, squared⟩
  · rw [root, Complex.ofReal_eq_zero, Real.sqrt_eq_zero nonnegative]
    exact ⟨fun vanishes => ⟨vanishes, nearAxis⟩, fun vanishes => vanishes.1⟩
  · constructor
    · intro vanishes
      rw [vanishes, zero_pow two_ne_zero] at squared
      refine absurd ?_ farOff
      rw [← squared]
      simpa using positive
    · rintro ⟨noRealPart, nearAxis⟩
      exact absurd ⟨nearAxis, noRealPart.ge⟩ farOff

/-- The cube of the magnitude of the real cube root is the magnitude. -/
theorem abs_realCbrt_cubed (x : ℝ) : |realCbrt x| ^ 3 = |x| := by
  have cubed : (|x| ^ ((3 : ℕ) : ℝ)⁻¹) ^ 3 = |x| := by
    rw [← Real.rpow_natCast, ← Real.rpow_mul (abs_nonneg x)]
    norm_num
  rw [realCbrt, abs_mul, abs_of_nonneg (Real.rpow_nonneg (abs_nonneg x) _), mul_pow, cubed]
  rcases lt_trichotomy x 0 with negative | rfl | positive
  · simp [sign_neg negative]
  · simp
  · simp [sign_pos positive]

/-- The sign of the imaginary part does not matter for the modulus. -/
theorem norm_signedLike (x sign y : Tolerant ε) :
    ‖toField ⟨x, Complex.signedLike sign y⟩‖ = √(toReal x ^ 2 + toReal y ^ 2) := by
  rw [Complex.norm_eq_sqrt_sq_add_sq]
  rcases signedLike_cases sign y with ⟨_, signed⟩ | ⟨_, unsigned⟩
  · rw [toField, signed, neg_sq]
  · rw [toField, unsigned]

/-- A vector at a third of a half turn is twice as long as its shorter side. -/
theorem sqrt_third_turn (r : ℝ) : √((r / 2.0) ^ 2 + (√3.0 * (r / 2.0)) ^ 2) = |r| := by
  have three : √(3.0 : ℝ) ^ 2 = 3.0 := Real.sq_sqrt (by norm_num)
  have squares : (r / 2.0) ^ 2 + (√3.0 * (r / 2.0)) ^ 2 = r ^ 2 := by
    rw [mul_pow, three]
    norm_num
    ring
  rw [squares, Real.sqrt_sq_eq_abs]

/-- A cube root has the cube root of the modulus. -/
theorem norm_cbrt (z : Complex (Tolerant ε)) : ‖toField (cbrt z)‖ ^ 3 = ‖toField z‖ := by
  change ‖toField z.cbrt‖ ^ 3 = ‖toField z‖
  unfold Complex.cbrt
  split
  · next isReal =>
    have noImaginaryPart : (toField z).im = 0 := beq_scalar_iff.mp isReal
    have modulus : ‖toField z‖ = |(toField z).re| := by
      rw [Complex.norm_eq_sqrt_sq_add_sq, noImaginaryPart, zero_pow two_ne_zero, add_zero,
        Real.sqrt_sq_eq_abs]
    split
    · -- To the left a third of half a turn leads from the axis to the principal root.
      have root := norm_signedLike (RealFunctions.cbrt (-z.re) / 2.0) z.im
        (RealFunctions.sqrt 3.0 * (RealFunctions.cbrt (-z.re) / 2.0))
      refine (congrArg (· ^ 3) (root.trans (sqrt_third_turn (realCbrt (-(toField z).re))))).trans ?_
      rw [modulus, ← abs_neg (toField z).re]
      exact abs_realCbrt_cubed (-(toField z).re)
    · have root : ‖toField ⟨RealFunctions.cbrt z.re, z.im⟩‖ = |realCbrt (toField z).re| := by
        have parts : toField ⟨RealFunctions.cbrt z.re, z.im⟩ =
            ⟨realCbrt (toField z).re, (toField z).im⟩ := rfl
        rw [parts, Complex.norm_eq_sqrt_sq_add_sq, noImaginaryPart, zero_pow two_ne_zero, add_zero,
          Real.sqrt_sq_eq_abs]
      rw [root, abs_realCbrt_cubed, modulus]
  · split
    · next imaginary =>
      have noRealPart : (toField z).re = 0 := beq_scalar_iff.mp imaginary
      have modulus : ‖toField z‖ = |(toField z).im| := by
        rw [Complex.norm_eq_sqrt_sq_add_sq, noRealPart, zero_pow two_ne_zero, zero_add,
          Real.sqrt_sq_eq_abs]
      have root := norm_signedLike
        (RealFunctions.sqrt 3.0 * (RealFunctions.cbrt (Scalar.abs z.im) / 2.0)) z.im
        (RealFunctions.cbrt (Scalar.abs z.im) / 2.0)
      rw [add_comm] at root
      refine (congrArg (· ^ 3) (root.trans (sqrt_third_turn (realCbrt |(toField z).im|)))).trans ?_
      rw [modulus, abs_realCbrt_cubed, abs_abs]
    · -- Off both axes the modulus is that of the polar coordinates.
      have modulus : toReal z.abs = ‖toField z‖ := abs_eq z
      rw [norm_ofPolar]
      change |realCbrt (toReal z.abs)| ^ 3 = ‖toField z‖
      rw [abs_realCbrt_cubed, modulus, abs_norm]

end Roots

end Tolerant

end RootFinding
