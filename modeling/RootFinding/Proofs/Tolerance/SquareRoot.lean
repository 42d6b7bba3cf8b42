import RootFinding.Proofs.Exact.SignedReals

/-!
# The principal square root

With exact numbers the square root lies in the right half plane, on the side of the axis on which
the operand lies, and for an operand on the axis it lies on the upper side, whatever the sign of the
zero. Its square is the operand, except where the operand is off the axis by less than the tolerance
and not to the left of the origin: there the imaginary part is dropped.
-/

namespace RootFinding

open Coefficient

namespace Tolerant

variable {ε : ℝ}

/-- Half of a principal angle is in the right half plane. -/
theorem cos_half_arg_nonneg (w : ℂ) : 0 ≤ Real.cos (w.arg / 2) := by
  have fromBelow := Complex.neg_pi_lt_arg w
  have fromAbove := Complex.arg_le_pi w
  exact Real.cos_nonneg_of_neg_pi_div_two_le_of_le (by linarith) (by linarith)

/-- Half of a principal angle is on the same side of the axis as the whole. -/
theorem sin_half_arg_mul_im_nonneg (w : ℂ) : 0 ≤ Real.sin (w.arg / 2) * w.im := by
  have fromBelow := Complex.neg_pi_lt_arg w
  have fromAbove := Complex.arg_le_pi w
  rcases lt_or_ge w.im 0 with below | above
  · have negative := Complex.arg_neg_iff.mpr below
    refine mul_nonneg_of_nonpos_of_nonpos ?_ below.le
    exact Real.sin_nonpos_of_nonpos_of_neg_pi_le (by linarith) (by linarith)
  · have nonnegative := Complex.arg_nonneg_iff.mpr above
    refine mul_nonneg ?_ above
    exact Real.sin_nonneg_of_nonneg_of_le_pi (by linarith) (by linarith)

/-- A magnitude with the sign of a scalar is on the side of that scalar. -/
theorem signedLike_mul_nonneg (sign : Tolerant ε) {x : Tolerant ε} (nonnegative : 0 ≤ toReal x) :
    0 ≤ toReal (Complex.signedLike sign x) * toReal sign := by
  rcases signedLike_cases sign x with ⟨below, signed⟩ | ⟨above, unsigned⟩
  · rw [signed]
    exact mul_nonneg_of_nonpos_of_nonpos (neg_nonpos.mpr nonnegative) below.le
  · rw [unsigned]
    exact mul_nonneg nonnegative above

/-- Off the real axis the square root is in the right half plane, on the side of the operand. -/
theorem sqrtSigned_halfPlane {z : Complex (Tolerant ε)} (notReal : (toField z).im ≠ 0) :
    0 ≤ (toField z.sqrtSigned).re ∧ 0 ≤ (toField z.sqrtSigned).im * (toField z).im := by
  have notRealHere : ¬(z.im == 0) = true := fun isReal => notReal (beq_scalar_iff.mp isReal)
  unfold Complex.sqrtSigned
  rw [if_neg notRealHere]
  split
  · have nonnegative : 0 ≤ toReal (RealFunctions.sqrt (Scalar.abs z.im / 2.0) : Tolerant ε) :=
      Real.sqrt_nonneg _
    exact ⟨nonnegative, signedLike_mul_nonneg z.im nonnegative⟩
  · have length : 0 ≤ toReal (RealFunctions.sqrt z.abs) := Real.sqrt_nonneg _
    have half : toReal (z.argSigned / 2.0) = (toField z).arg / 2 := by
      change (toField z).arg / 2.0 = (toField z).arg / 2
      norm_num
    rw [toField_ofPolar, half]
    refine ⟨mul_nonneg length (cos_half_arg_nonneg _), ?_⟩
    rw [mul_assoc]
    exact mul_nonneg length (sin_half_arg_mul_im_nonneg _)

/-- The square root is in the right half plane and on the side of the operand, and for a real
operand it is not below the axis. -/
theorem sqrt_halfPlane (z : Complex (Tolerant ε)) :
    0 ≤ (toField z.sqrt).re ∧ 0 ≤ (toField z.sqrt).im * (toField z).im ∧
      ((toField z).im = 0 → 0 ≤ (toField z.sqrt).im) := by
  unfold Complex.sqrt
  split
  · have parts : toField (Complex.ofReal (RealFunctions.sqrt z.re)) = ⟨√(toField z).re, 0⟩ := rfl
    rw [parts]
    exact ⟨Real.sqrt_nonneg _, by rw [zero_mul], fun _ => le_rfl⟩
  · split
    · next isReal =>
      have noImaginaryPart : (toField z).im = 0 := beq_scalar_iff.mp isReal
      have parts : toField ⟨0, RealFunctions.sqrt (-z.re)⟩ = ⟨0, √(-(toField z).re)⟩ := rfl
      rw [parts, noImaginaryPart, mul_zero]
      exact ⟨le_rfl, le_rfl, fun _ => Real.sqrt_nonneg _⟩
    · next notReal =>
      have imaginaryPart : (toField z).im ≠ 0 := fun vanishes =>
        notReal (beq_scalar_iff.mpr vanishes)
      obtain ⟨right, sameSide⟩ := sqrtSigned_halfPlane imaginaryPart
      exact ⟨right, sameSide, fun vanishes => absurd vanishes imaginaryPart⟩

end Tolerant

namespace ExactReals

open Tolerant

variable {R : Type} [RealFunctions R] [ExactReals R]

/-- The real number that a scalar stands for, in which zero has no sign. -/
def withoutSign (x : R) : Tolerant (value (Scalar.epsilon : R)) := value x

/-- The complex number without the signs of zeros. -/
def withoutSigns (z : Complex R) : Complex (Tolerant (value (Scalar.epsilon : R))) :=
  ⟨withoutSign z.re, withoutSign z.im⟩

/-- The element of the complex field that a number stands for. -/
def toComplex (z : Complex R) : ℂ := toField (withoutSigns z)

/-- Multiplication is exact. -/
theorem toComplex_mul (z w : Complex R) : toComplex (z * w) = toComplex z * toComplex w := by
  apply Complex.ext
  · exact (value_sub _ _).trans (congrArg₂ (· - ·) (value_mul _ _) (value_mul _ _))
  · exact (value_add _ _).trans (congrArg₂ (· + ·) (value_mul _ _) (value_mul _ _))

/-- Subtraction is exact. -/
theorem toComplex_sub (z w : Complex R) : toComplex (z - w) = toComplex z - toComplex w :=
  Complex.ext (value_sub _ _) (value_sub _ _)

/-- Numbers are equal exactly if they stand for one element of the field. -/
theorem beq_iff_toComplex (z w : Complex R) : (z == w) = true ↔ toComplex z = toComplex w := by
  change (z.re == w.re && z.im == w.im) = true ↔ _
  rw [Bool.and_eq_true, beq_iff, beq_iff]
  exact (Complex.ext_iff (z := toComplex z) (w := toComplex w)).symm

/-- The modulus is exact. -/
theorem value_modulus (z : Complex R) : value z.abs = ‖toComplex z‖ :=
  (value_hypot z.re z.im).trans (abs_eq (withoutSigns z))

/-- Giving a scalar the sign of one that is not zero is exact. -/
theorem withoutSign_signedLike {sign : R} (nonzero : value sign ≠ 0) (x : R) :
    withoutSign (Complex.signedLike sign x) =
      Complex.signedLike (withoutSign sign) (withoutSign x) := by
  have sameSign : Scalar.signBit sign = true ↔ Scalar.signBit (withoutSign sign) = true :=
    (signBit_iff nonzero).trans decide_eq_true_iff.symm
  unfold Complex.signedLike
  rw [apply_ite withoutSign]
  exact if_congr sameSign (value_neg x) rfl

/-- Polar coordinates are taken exactly. -/
theorem withoutSigns_ofPolar (modulus angle : R) :
    withoutSigns (Complex.ofPolar modulus angle) =
      Complex.ofPolar (withoutSign modulus) (withoutSign angle) := by
  have horizontal : value (modulus * RealFunctions.cos angle) =
      value modulus * Real.cos (value angle) := by rw [value_mul, value_cos]
  have vertical : value (modulus * RealFunctions.sin angle) =
      value modulus * Real.sin (value angle) := by rw [value_mul, value_sin]
  exact congrArg₂ Complex.mk horizontal vertical

/-- Halving is exact. -/
theorem value_half (x : R) : value (x / 2.0) = value x / 2.0 := by
  have two : value (2.0 : R) = (2.0 : ℝ) := by
    rw [value_two]
    norm_num
  rw [value_div _ (by rw [two]; norm_num), two]

/-- A scalar equals zero exactly if it does so without its sign. -/
theorem beq_zero_iff (x : R) : (x == 0) = true ↔ (withoutSign x == 0) = true := by
  rw [beq_iff, value_zero]
  exact beq_scalar_iff.symm

/-- Off the axis the square root looks at the sign of no zero. -/
theorem withoutSigns_sqrtSigned {z : Complex R} (notReal : value z.im ≠ 0) :
    withoutSigns z.sqrtSigned = (withoutSigns z).sqrtSigned := by
  have notRealHere : ¬(z.im == 0) = true := by
    rwa [beq_iff, value_zero]
  have notRealThere : ¬((withoutSigns z).im == 0) = true := mt (beq_zero_iff z.im).mpr notRealHere
  unfold Complex.sqrtSigned
  rw [if_neg notRealHere, if_neg notRealThere, apply_ite withoutSigns]
  refine if_congr (beq_zero_iff z.re) ?_ ?_
  · have half : value (Scalar.abs z.im / 2.0) = |value z.im| / 2.0 := by
      rw [value_half, value_abs]
    have root : value (RealFunctions.sqrt (Scalar.abs z.im / 2.0)) = √(|value z.im| / 2.0) := by
      rw [value_sqrt (by rw [half]; positivity), half]
    have vertical := withoutSign_signedLike notReal (RealFunctions.sqrt (Scalar.abs z.im / 2.0))
    rw [withoutSign, withoutSign, withoutSign, root] at vertical
    exact congrArg₂ Complex.mk root vertical
  · have modulus : value (RealFunctions.sqrt z.abs) = √(value z.abs) :=
      value_sqrt (by rw [value_modulus]; exact norm_nonneg _)
    have angle : value (z.argSigned / 2.0) = (⟨value z.re, value z.im⟩ : ℂ).arg / 2.0 := by
      rw [value_half, Complex.argSigned, value_atan2 _ notReal]
    rw [withoutSigns_ofPolar, withoutSign, withoutSign, modulus, angle, value_modulus, toComplex,
      ← abs_eq]
    rfl

/-- What the square root takes for a real number with a real root. -/
theorem isReal_and_nonneg_iff (z : Complex R) : (z.isReal && decide (0 ≤ z.re)) = true ↔
    |value z.im| < value (Scalar.epsilon : R) ∧ 0 ≤ value z.re := by
  rw [Bool.and_eq_true, Complex.isReal, Scalar.isNegligible, decide_eq_true_iff, decide_eq_true_iff,
    lt_iff, le_iff, value_abs, value_zero]

/-- The square root looks at the sign of no zero. -/
theorem withoutSigns_sqrt (z : Complex R) : withoutSigns z.sqrt = (withoutSigns z).sqrt := by
  have guard : (z.isReal && decide (0 ≤ z.re)) = true ↔
      ((withoutSigns z).isReal && decide (0 ≤ (withoutSigns z).re)) = true := by
    rw [isReal_and_nonneg_iff, Bool.and_eq_true]
    exact (and_congr decide_eq_true_iff decide_eq_true_iff).symm
  have realIff : (z.im == 0) = true ↔ ((withoutSigns z).im == 0) = true := beq_zero_iff z.im
  unfold Complex.sqrt
  rw [apply_ite withoutSigns, apply_ite withoutSigns]
  split
  · next nearAxis =>
    rw [if_pos (guard.mp nearAxis)]
    exact congrArg₂ Complex.mk (value_sqrt ((isReal_and_nonneg_iff z).mp nearAxis).2) value_zero
  · next farOff =>
    rw [if_neg (mt guard.mpr farOff)]
    split
    · next isReal =>
      rw [if_pos (realIff.mp isReal)]
      rw [beq_iff, value_zero] at isReal
      -- The first branch took the rest of the axis.
      have negative : value z.re < 0 := by
        rw [isReal_and_nonneg_iff, isReal, abs_zero] at farOff
        exact not_le.mp fun nonnegative => farOff ⟨epsilon_pos, nonnegative⟩
      have root : value (RealFunctions.sqrt (-z.re)) = √(-value z.re) := by
        rw [value_sqrt (by rw [value_neg]; linarith), value_neg]
      exact congrArg₂ Complex.mk value_zero root
    · next notReal =>
      rw [if_neg (mt realIff.mpr notReal)]
      rw [beq_iff, value_zero] at notReal
      exact withoutSigns_sqrtSigned notReal

/-- A number that is off the axis by less than the tolerance, and not to the left of the origin. -/
def NearAxis (z : Complex R) : Prop :=
  0 < Scalar.abs z.im ∧ Scalar.abs z.im < Scalar.epsilon ∧ 0 ≤ z.re

/-- Being near the axis in terms of the element of the field. -/
theorem nearAxis_iff_toComplex (z : Complex R) : NearAxis z ↔
    (toComplex z).im ≠ 0 ∧ |(toComplex z).im| < value (Scalar.epsilon : R) ∧
      0 ≤ (toComplex z).re := by
  rw [NearAxis, lt_iff, lt_iff, le_iff, value_abs, value_zero, abs_pos]
  rfl

/-- A square root is exact, or it is the real one of the real part. -/
theorem sqrt_exact_or_real (z : Complex R) :
    ¬NearAxis z ∧ toComplex z.sqrt ^ 2 = toComplex z ∨
      NearAxis z ∧ toComplex z.sqrt = (√(toComplex z).re : ℝ) := by
  have root : toComplex z.sqrt = toField (sqrt (withoutSigns z)) :=
    congrArg toField (withoutSigns_sqrt z)
  rw [nearAxis_iff_toComplex, root]
  rcases sqrt_cases epsilon_pos (withoutSigns z) with ⟨close, nonnegative, real⟩ | ⟨far, squared⟩
  · by_cases onAxis : (toComplex z).im = 0
    · refine Or.inl ⟨fun near => near.1 onAxis, ?_⟩
      rw [real, ← Complex.ofReal_pow, Real.sq_sqrt nonnegative]
      exact Complex.ext rfl onAxis.symm
    · exact Or.inr ⟨⟨onAxis, close, nonnegative⟩, real⟩
  · exact Or.inl ⟨fun near => far near.2, squared⟩

/-- Near the axis the square of the square root is the real part. -/
theorem sqrt_squared_of_nearAxis {z : Complex R} (near : NearAxis z)
    (real : toComplex z.sqrt = (√(toComplex z).re : ℝ)) :
    toComplex z.sqrt ^ 2 = ((toComplex z).re : ℂ) := by
  have nonnegative := ((nearAxis_iff_toComplex z).mp near).2.2
  rw [real, ← Complex.ofReal_pow, Real.sq_sqrt nonnegative]

/-- The square of the square root is within the tolerance of the operand. -/
theorem norm_sqrt_squared_sub_lt (z : Complex R) :
    ‖toComplex z.sqrt ^ 2 - toComplex z‖ < value (Scalar.epsilon : R) := by
  rcases sqrt_exact_or_real z with ⟨_, squared⟩ | ⟨near, real⟩
  · rw [squared, sub_self, norm_zero]
    exact epsilon_pos
  · have vertical : (((toComplex z).re : ℂ) - toComplex z).re = 0 := by
      rw [Complex.sub_re, Complex.ofReal_re, sub_self]
    rw [sqrt_squared_of_nearAxis near real, ← Complex.abs_im_eq_norm.mpr vertical, Complex.sub_im,
      Complex.ofReal_im, zero_sub, abs_neg]
    exact ((nearAxis_iff_toComplex z).mp near).2.1

/-- The square root is exact unless the operand is near the axis and not on it. -/
theorem sqrt_squared_iff (z : Complex R) :
    toComplex z.sqrt ^ 2 = toComplex z ↔ ¬NearAxis z := by
  rcases sqrt_exact_or_real z with ⟨far, squared⟩ | ⟨near, real⟩
  · exact iff_of_true squared far
  · refine iff_of_false (fun same => ?_) (not_not.mpr near)
    rw [sqrt_squared_of_nearAxis near real] at same
    have onAxis : (toComplex z).im = 0 := (congrArg (fun w : ℂ => w.im) same).symm
    exact ((nearAxis_iff_toComplex z).mp near).1 onAxis

/-- The square root is principal, and exact up to the tolerance. It lies in the right half plane and
on the side of the operand, and for an operand on the axis, whatever the sign of its zero, it is not
below the axis. Its square is within the tolerance of the operand, and the operand itself unless
that is off the axis by less than the tolerance and not to the left of the origin. In that case the
square root is real, and the one of the real part that is not negative. -/
theorem sqrt_principal (z : Complex R) :
    0 ≤ z.sqrt.re ∧ 0 ≤ z.sqrt.im * z.im ∧ ((z.im == 0) = true → 0 ≤ z.sqrt.im) ∧
      (z.sqrt * z.sqrt - z).abs < Scalar.epsilon ∧
      ((z.sqrt * z.sqrt == z) = true ↔ ¬NearAxis z) ∧
      (NearAxis z → (z.sqrt.im == 0) = true ∧ (z.sqrt.re * z.sqrt.re == z.re) = true) := by
  obtain ⟨right, sameSide, notBelow⟩ := sqrt_halfPlane (withoutSigns z)
  rw [← withoutSigns_sqrt] at right sameSide notBelow
  refine ⟨?_, ?_, fun onAxis => ?_, ?_, ?_, fun near => ?_⟩
  · rw [le_iff, value_zero]
    exact right
  · rw [le_iff, value_zero, value_mul]
    exact sameSide
  · rw [beq_iff, value_zero] at onAxis
    rw [le_iff, value_zero]
    exact notBelow onAxis
  · rw [lt_iff, value_modulus, toComplex_sub, toComplex_mul, ← pow_two]
    exact norm_sqrt_squared_sub_lt z
  · rw [beq_iff_toComplex, toComplex_mul, ← pow_two]
    exact sqrt_squared_iff z
  · rcases sqrt_exact_or_real z with ⟨far, _⟩ | ⟨_, real⟩
    · exact absurd near far
    · have nonnegative := ((nearAxis_iff_toComplex z).mp near).2.2
      have horizontal : value z.sqrt.re = √(value z.re) := congrArg (fun w : ℂ => w.re) real
      have vertical : value z.sqrt.im = 0 := congrArg (fun w : ℂ => w.im) real
      rw [beq_iff, beq_iff, value_zero, value_mul, horizontal]
      exact ⟨vertical, Real.mul_self_sqrt nonnegative⟩

/-- Below the negative axis by a zero with a minus sign, the square root is on the upper side all
the same, and exact. Below the positive axis by less than the tolerance it is real. -/
theorem sqrt_principal_below :
    let below : Complex SignedReal := ⟨-4.0, -0⟩
    let close : Complex SignedReal := ⟨4.0, -⟨0.5 ^ 60, false⟩⟩
    Scalar.signBit below.im = true ∧ 0 ≤ below.sqrt.im ∧
      (below.sqrt * below.sqrt == below) = true ∧
      NearAxis close ∧ (close.sqrt.im == 0) = true ∧
      (close.sqrt.re * close.sqrt.re == close.re) = true := by
  intro below close
  have zero : value below.im = 0 := neg_zero
  have onAxis : (below.im == 0) = true := by
    rw [beq_iff, value_zero]
    exact zero
  have signed : Scalar.signBit below.im = true := by
    change SignedReal.minus ⟨-0, !SignedReal.minus ⟨0, false⟩⟩ = true
    simp [SignedReal.minus]
  have notNear : ¬NearAxis below := fun near =>
    ((nearAxis_iff_toComplex below).mp near).1 zero
  have near : NearAxis close := by
    rw [nearAxis_iff_toComplex]
    change -(0.5 ^ 60 : ℝ) ≠ 0 ∧ |-(0.5 ^ 60 : ℝ)| < 0.5 ^ 52 ∧ (0 : ℝ) ≤ 4.0
    rw [abs_neg, abs_of_pos (by norm_num)]
    norm_num
  obtain ⟨_, _, notBelow, _, exactIff, _⟩ := sqrt_principal below
  obtain ⟨real, squared⟩ := (sqrt_principal close).2.2.2.2.2 near
  exact ⟨signed, notBelow onAxis, exactIff.mpr notNear, near, real, squared⟩

end ExactReals

end RootFinding
