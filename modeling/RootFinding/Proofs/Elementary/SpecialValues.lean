import RootFinding.Complex.Elementary
import RootFinding.Proofs.Binary.Laws

/-!
# Elementary functions at the special values

What the standard of the C language says of the elementary functions at zeros, infinities and
values that are not a number, as far as the principal values depend on it. The sign of a zero
operand decides no more than the sign of a zero result, with one exception: the angle of a vector on
the axis is zero or half a turn by the sign of its first coordinate, even if that is zero, and its
sign is that of the second coordinate.
-/

namespace RootFinding

open FloatingScalar

/-- Half a turn: the angle of the negative axis. -/
def halfTurn {R : Type} [RealFunctions R] : R := RealFunctions.atan2 0 (-1)

/-- Elementary functions with the special values of the C language. -/
class ElementaryLaws (R : Type) [RealFunctions R] [FloatingScalar R] : Prop where
  hypot_congr {x x' y y' : R} : Same x x' → Same y y' →
    RealFunctions.hypot x y = RealFunctions.hypot x' y'
  hypot_zero : RealFunctions.hypot (0 : R) 0 = 0
  log_zero : Scalar.isInfinite (RealFunctions.log (0 : R)) = true
  exp_congr {x y : R} : Same x y → Same (RealFunctions.exp x) (RealFunctions.exp y)
  exp_notANumber {x : R} : Scalar.isNaN x = true → Scalar.isNaN (RealFunctions.exp x) = true
  sin_congr {x y : R} : Same x y → Same (RealFunctions.sin x) (RealFunctions.sin y)
  sin_neg (x : R) : Same (RealFunctions.sin (-x)) (-RealFunctions.sin x)
  cos_congr {x y : R} : Same x y → Same (RealFunctions.cos x) (RealFunctions.cos y)
  cos_neg (x : R) : Same (RealFunctions.cos (-x)) (RealFunctions.cos x)
  sqrt_congr {x y : R} : Same x y → Same (RealFunctions.sqrt x) (RealFunctions.sqrt y)
  cbrt_congr {x y : R} : Same x y → Same (RealFunctions.cbrt x) (RealFunctions.cbrt y)
  cbrt_zero : Same (RealFunctions.cbrt (0 : R)) 0
  pow_zero {x : R} : ¬0 < x → (x == 0) = false →
    Scalar.isFinite (RealFunctions.pow 0 x) = false
  atan2_right {y x : R} : (y == 0) = true → Scalar.isNaN x = false → Scalar.signBit x = false →
    Same (RealFunctions.atan2 y x) 0
  atan2_left {y x : R} : (y == 0) = true → Scalar.isNaN x = false → Scalar.signBit x = true →
    RealFunctions.atan2 y x = Complex.signedLike y halfTurn
  atan2_congr {y x x' : R} : (y == 0) = false → Same x x' →
    Same (RealFunctions.atan2 y x) (RealFunctions.atan2 y x')
  halfTurn_finite : Scalar.isFinite (halfTurn : R) = true
  halfTurn_nonzero : ((halfTurn : R) == 0) = false
  ln10_finite : Scalar.isFinite (RealFunctions.ln10 : R) = true
  ln10_nonzero : ((RealFunctions.ln10 : R) == 0) = false
  halfTurn_div_ln10_nonzero : ((halfTurn : R) / RealFunctions.ln10 == 0) = false

namespace Complex

open ElementaryLaws

variable {R : Type} [RealFunctions R] [FloatingScalar R]

section Sameness

/-- One number but for the signs of zeros. -/
structure Alike (z w : Complex R) : Prop where
  re : Same z.re w.re
  im : Same z.im w.im

/-- Equal, unless one of them is not a number. -/
def Agree (z w : Complex R) : Prop :=
  z.isNaN = true ∨ w.isNaN = true ∨ (z == w) = true

instance (z w : Complex R) : Decidable (Agree z w) :=
  inferInstanceAs (Decidable (_ ∨ _))

variable {z z' w w' : Complex R}

/-- Every complex number is like itself. -/
@[refl] theorem Alike.refl (z : Complex R) : Alike z z :=
  ⟨Same.refl _, Same.refl _⟩

/-- Being alike does not depend on the order. -/
theorem Alike.symm (alike : Alike z w) : Alike w z :=
  ⟨alike.re.symm, alike.im.symm⟩

/-- What is like the like is alike. -/
theorem Alike.trans (first : Alike z w) (second : Alike w w') : Alike z w' :=
  ⟨first.re.trans second.re, first.im.trans second.im⟩

/-- The conjugates of what is alike are alike. -/
theorem Alike.conj (alike : Alike z w) : Alike z.conj w.conj :=
  ⟨alike.re, alike.im.neg⟩

/-- Equal complex numbers are alike. -/
theorem alike_of_beq (equal : (z == w) = true) : Alike z w :=
  ⟨same_of_beq (beq_iff.mp equal).1, same_of_beq (beq_iff.mp equal).2⟩

/-- Only numbers equal anything. -/
theorem isNaN_of_beq (equal : (z == w) = true) : z.isNaN = false := by
  obtain ⟨sameRe, sameIm⟩ := beq_iff.mp equal
  rw [isNaN, (FloatingScalar.beq_iff.mp sameRe).1, (FloatingScalar.beq_iff.mp sameIm).1,
    Bool.or_false]

/-- Whether two complex numbers are equal does not depend on the signs of zeros. -/
theorem Alike.beq (first : Alike z z') (second : Alike w w') : (z == w) = (z' == w') :=
  congrArg₂ (· && ·) (first.re.beq second.re) (first.im.beq second.im)

omit [FloatingScalar R] in
/-- With a real part that is not a number it is none. -/
theorem isNaN_of_re (notANumber : Scalar.isNaN z.re = true) : z.isNaN = true := by
  rw [isNaN, notANumber, Bool.true_or]

omit [FloatingScalar R] in
/-- With an imaginary part that is not a number it is none. -/
theorem isNaN_of_im (notANumber : Scalar.isNaN z.im = true) : z.isNaN = true := by
  rw [isNaN, notANumber, Bool.or_true]

/-- What is alike agrees. -/
theorem Alike.agree (alike : Alike z w) : Agree z w := by
  unfold Agree
  cases nanRe : Scalar.isNaN z.re with
  | true => exact Or.inl (isNaN_of_re nanRe)
  | false =>
      cases nanIm : Scalar.isNaN z.im with
      | true => exact Or.inl (isNaN_of_im nanIm)
      | false =>
          have sameRe : (z.re == w.re) = true := FloatingScalar.beq_iff.mpr ⟨nanRe, alike.re⟩
          have sameIm : (z.im == w.im) = true := FloatingScalar.beq_iff.mpr ⟨nanIm, alike.im⟩
          exact Or.inr (Or.inr (beq_iff.mpr ⟨sameRe, sameIm⟩))

/-- The products of what is alike are alike. -/
theorem Alike.mul (first : Alike z z') (second : Alike w w') : Alike (z * w) (z' * w') where
  re := (first.re.mul second.re).sub (first.im.mul second.im)
  im := (first.re.mul second.im).add (first.im.mul second.re)

/-- The quotients of what is alike by a scalar are alike. -/
theorem Alike.div (alike : Alike z w) (x : R) : Alike (z / x) (w / x) :=
  ⟨alike.re.div x, alike.im.div x⟩

/-- Agreement does not depend on the order. -/
theorem Agree.symm (agree : Agree z w) : Agree w z := by
  rcases agree with notANumber | notANumber | equal
  · exact Or.inr (Or.inl notANumber)
  · exact Or.inl notANumber
  · refine Or.inr (Or.inr ?_)
    rw [(alike_of_beq equal).symm.beq (alike_of_beq equal), equal]

/-- What is alike are both numbers or neither. -/
theorem Alike.isNaN (alike : Alike z w) : z.isNaN = w.isNaN := by
  rw [Complex.isNaN, Complex.isNaN, alike.re.isNaN, alike.im.isNaN]

/-- What agrees with a number agrees with what is like it. -/
theorem Agree.trans_alike (agree : Agree z w) (alike : Alike w w') : Agree z w' := by
  unfold Agree at agree ⊢
  rwa [← alike.isNaN, ← (Alike.refl z).beq alike]

/-- What has parts that are zero or not a number agrees with zero. -/
theorem agree_zero (re : Same z.re 0 ∨ Scalar.isNaN z.re = true)
    (im : Same z.im 0 ∨ Scalar.isNaN z.im = true) : Agree z 0 := by
  rcases re with zeroRe | notANumber
  · rcases im with zeroIm | notANumber
    · exact Alike.agree ⟨zeroRe, zeroIm⟩
    · exact Or.inl (isNaN_of_im notANumber)
  · exact Or.inl (isNaN_of_re notANumber)

/-- What is zero or not a number agrees with its like. -/
theorem agree_of_zero_or (first : z = 0 ∨ z.isNaN = true) (second : w = 0 ∨ w.isNaN = true) :
    Agree z w := by
  rcases first with rfl | notANumber
  · rcases second with rfl | notANumber
    · exact (Alike.refl 0).agree
    · exact Or.inr (Or.inl notANumber)
  · exact Or.inl notANumber

/-- A conjugate is a number exactly if what it is the conjugate of is. -/
theorem isNaN_conj (z : Complex R) : z.conj.isNaN = z.isNaN :=
  congrArg (Scalar.isNaN z.re || ·) (FloatingScalar.isNaN_neg z.im)

/-- Numbers on the imaginary axis agree exactly if their imaginary parts do. -/
theorem agree_imaginary_iff {x y : R} : Agree ⟨0, x⟩ ⟨0, y⟩ ↔
    Scalar.isNaN x = true ∨ Scalar.isNaN y = true ∨ (x == y) = true := by
  have number (x : R) : isNaN ⟨0, x⟩ = Scalar.isNaN x :=
    (congrArg (· || Scalar.isNaN x) isNaN_zero).trans (Bool.false_or _)
  have zero : ((0 : R) == 0) = true := beq_zero_iff.mpr (Same.refl 0)
  have equal : ((⟨0, x⟩ : Complex R) == ⟨0, y⟩) = (x == y) :=
    (congrArg (· && (x == y)) zero).trans (Bool.true_and _)
  rw [Agree, number, number, equal]

/-- Zero is like its conjugate, which has a negative zero for its imaginary part. -/
theorem conj_zero_alike : Alike (0 : Complex R) (conj 0) :=
  ⟨Same.refl 0, neg_zero_same.symm⟩

/-- One is like its conjugate. -/
theorem conj_one_alike : Alike (1 : Complex R) (conj 1) :=
  ⟨Same.refl 1, neg_zero_same.symm⟩

/-- Of equal complex numbers both are zero or neither. -/
theorem beq_zero_of_beq (equal : (z == w) = true) : (z == 0) = (w == 0) :=
  (alike_of_beq equal).beq (Alike.refl 0)

/-- What agrees with the conjugate of a number agrees with the number only if that is real, unless
one of them is not a number. -/
theorem agree_iff_of_conj (conjugate : Agree w z.conj) :
    Agree z w ↔ z.isNaN = true ∨ w.isNaN = true ∨ (z.im == 0) = true := by
  refine or_congr_right' fun number => or_congr_right' fun numberToo => ?_
  have conjugate := alike_of_beq
    ((conjugate.resolve_left numberToo).resolve_left (isNaN_conj z ▸ number))
  have numbers : Scalar.isNaN z.re = false ∧ Scalar.isNaN z.im = false := by
    rwa [isNaN, Bool.not_eq_true, Bool.or_eq_false_iff] at number
  rw [(Alike.refl z).beq conjugate, beq_zero_iff]
  constructor
  · intro equal
    exact (zero_of_same_neg (alike_of_beq equal).im).resolve_right
      (Bool.eq_false_iff.mp numbers.2)
  · intro real
    have equalRe : (z.re == z.re) = true := FloatingScalar.beq_iff.mpr ⟨numbers.1, Same.refl _⟩
    have equalIm : (z.im == -z.im) = true :=
      FloatingScalar.beq_iff.mpr ⟨numbers.2, same_neg_of_zero real⟩
    exact beq_iff.mpr ⟨equalRe, equalIm⟩

end Sameness

section Functions

variable [ElementaryLaws R] {z w : Complex R} {modulus modulus' angle angle' : R}

/-- The same polar coordinates give numbers that are alike. -/
theorem ofPolar_alike (sameModulus : Same modulus modulus') (sameAngle : Same angle angle') :
    Alike (ofPolar modulus angle) (ofPolar modulus' angle') :=
  ⟨sameModulus.mul (cos_congr sameAngle), sameModulus.mul (sin_congr sameAngle)⟩

/-- The opposite angle belongs to the conjugate. -/
theorem ofPolar_conj (modulus : R) (opposite : Same angle' (-angle)) :
    Alike (ofPolar modulus angle') (ofPolar modulus angle).conj where
  re := (Same.refl modulus).mul ((cos_congr opposite).trans (cos_neg angle))
  im := by
    refine ((Same.refl modulus).mul ((sin_congr opposite).trans (sin_neg angle))).trans ?_
    rw [FloatingScalar.mul_neg]
    rfl

/-- Beyond all finite moduli the angle zero belongs to no number. -/
theorem isNaN_ofPolar (nonfinite : Scalar.isFinite modulus = false)
    (opposite : Same angle (-angle)) : (ofPolar modulus angle).isNaN = true := by
  have sine : Same (RealFunctions.sin angle) (-RealFunctions.sin angle) :=
    (sin_congr opposite).trans (sin_neg angle)
  refine isNaN_of_im ?_
  rcases zero_of_same_neg sine with zero | notANumber
  · exact isNaN_mul_zero nonfinite zero
  · exact isNaN_mul_right notANumber modulus

/-- The exponential does not look at the sign of a zero, but for that of a zero imaginary part. -/
theorem exp_alike (alike : Alike z w) : Alike (exp z) (exp w) := by
  have negative : decide (z.re < 0) = decide (w.re < 0) :=
    decide_eq_decide.mpr (alike.re.lt (Same.refl 0))
  have real : (z.im == 0) = (w.im == 0) := alike.im.beq (Same.refl 0)
  unfold exp
  rw [negative, real, alike.re.isInfinite, alike.re.isNaN, alike.im.isInfinite, alike.im.isFinite]
  split
  · exact Alike.refl _
  · split
    · refine ⟨alike.re, ?_⟩
      simp only
      split
      · exact alike.im.sub alike.im
      · exact alike.im
    · split
      · exact alike
      · exact ofPolar_alike (exp_congr alike.re) alike.im

/-- The exponential of the conjugate is the conjugate of the exponential. -/
theorem exp_conj (z : Complex R) : Alike (exp z.conj) (exp z).conj := by
  have real : (z.conj.im == 0) = (z.im == 0) :=
    (neg_beq z.im 0).trans ((Same.refl z.im).beq neg_zero_same)
  unfold exp
  rw [real, show Scalar.isFinite z.conj.im = Scalar.isFinite z.im from isFinite_neg z.im,
    show Scalar.isInfinite z.conj.im = Scalar.isInfinite z.im from isInfinite_neg z.im,
    show z.conj.re = z.re from rfl]
  split
  · exact ⟨Same.refl 0, neg_zero_same.symm⟩
  · split
    · refine ⟨Same.refl _, ?_⟩
      simp only [conj]
      split
      · next infinite =>
        refine same_of_isNaN (isNaN_sub_self ?_) ?_
        · rw [isInfinite_neg, infinite]
        · rw [FloatingScalar.isNaN_neg, isNaN_sub_self infinite]
      · exact Same.refl _
    · split
      · exact Alike.refl _
      · exact ofPolar_conj _ (Same.refl _)

/-- Beyond all finite numbers in both parts the exponential is zero or not a number. -/
theorem exp_nonfinite (nonfiniteRe : Scalar.isFinite z.re = false)
    (nonfiniteIm : Scalar.isFinite z.im = false) : exp z = 0 ∨ (exp z).isNaN = true := by
  -- An infinite real part decides by its sign between zero and an infinity of unknown angle.
  rcases isInfinite_or_isNaN nonfiniteRe with infinite | notANumber
  · by_cases negative : z.re < 0
    · left
      unfold exp
      rw [infinite, nonfiniteIm, decide_eq_true negative]
      rfl
    · right
      have value : exp z =
          ⟨z.re, if Scalar.isInfinite z.im then z.im - z.im else z.im⟩ := by
        unfold exp
        rw [infinite, nonfiniteIm, decide_eq_false negative, Bool.not_false, Bool.or_true]
        rfl
      refine isNaN_of_im ?_
      rw [value]
      rcases isInfinite_or_isNaN nonfiniteIm with infiniteToo | notANumber
      · simp only [infiniteToo, if_true]
        exact isNaN_sub_self infiniteToo
      · simp only [Scalar.isInfinite, notANumber, Bool.not_true, Bool.and_false]
        exact notANumber
  · right
    have notReal : (z.im == 0) = false := by
      refine beq_zero_eq_false_iff.mpr fun zero => ?_
      rw [zero.isFinite, isFinite_zero] at nonfiniteIm
      cases nonfiniteIm
    have value : exp z = ofPolar (RealFunctions.exp z.re) z.im := by
      have ordinary : Scalar.isInfinite z.re = false := by
        rw [Scalar.isInfinite, notANumber, Bool.not_true, Bool.and_false]
      unfold exp
      rw [ordinary, notReal, Bool.and_false]
      rfl
    refine isNaN_of_re ?_
    rw [value]
    exact isNaN_mul_left (exp_notANumber notANumber) _

end Functions

end Complex

end RootFinding
