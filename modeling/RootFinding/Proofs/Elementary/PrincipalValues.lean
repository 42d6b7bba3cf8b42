import RootFinding.Proofs.Elementary.Series

/-!
# Principal values of equal numbers

Equal numbers may differ in the signs of their zeros, and the functions with a cut look at these
signs. `sqrt` looks at none of them. `arg` and `log` look at the sign of the real part, and so tell
the zeros apart, half of which lie on the negative axis. The logarithm to base ten, the cube root
and the powers also look at the sign of the imaginary part: at two equal numbers on the negative
axis of which one has a minus sign there they have conjugate values, and these are equal only if
they are real.
-/

namespace RootFinding.Complex

open FloatingScalar ElementaryLaws

variable {R : Type} [RealFunctions R] [FloatingScalar R]

/-- Both numbers are on the negative axis, and the signs of their imaginary parts are different. -/
def CutApart (z w : Complex R) : Prop :=
  (z.im == 0) = true ∧ Scalar.signBit z.re = true ∧ Scalar.signBit w.re = true ∧
    Scalar.signBit z.im ≠ Scalar.signBit w.im

/-- Both numbers are zero, and one of them is on the negative axis. -/
def OriginApart (z w : Complex R) : Prop :=
  (z == 0) = true ∧ Scalar.signBit z.re ≠ Scalar.signBit w.re

/-- A function agrees at two equal numbers, unless they are on the two sides of the cut. There its
values agree with each other's conjugates, so that they agree only if they are real. -/
def SplitAtCut (f : Complex R → Complex R) (z w : Complex R) : Prop :=
  (¬CutApart z w → Agree (f z) (f w)) ∧
  (CutApart z w → Agree (f w) (f z).conj ∧
    (Agree (f z) (f w) ↔
      (f z).isNaN = true ∨ (f w).isNaN = true ∨ ((f z).im == 0) = true))

/-- To be split at the cut it is enough to agree off it, and to be conjugate on it. -/
theorem splitAtCut_of {f : Complex R → Complex R} {z w : Complex R}
    (off : ¬CutApart z w → Agree (f z) (f w)) (on : CutApart z w → Agree (f w) (f z).conj) :
    SplitAtCut f z w :=
  ⟨off, fun cut => ⟨on cut, agree_iff_of_conj (on cut)⟩⟩

section Operands

variable {z w : Complex R}

/-- Equal numbers are off the axis with one imaginary part, or on the axis. There they have one real
part, or they are zeros. -/
theorem equal_cases (equal : (z == w) = true) :
    ((z.im == 0) = false ∧ z.im = w.im) ∨
      (Same z.im 0 ∧ Same w.im 0 ∧ z.re = w.re) ∨
        (Same z.im 0 ∧ Same w.im 0 ∧ OriginApart z w) := by
  have alike := alike_of_beq equal
  cases real : z.im == 0 with
  | false =>
      refine Or.inl ⟨rfl, alike.im.eq_of_signBit ?_⟩
      by_contra differ
      exact beq_zero_eq_false_iff.mp real (alike.im.zero_of_signBit differ)
  | true =>
      have zero := beq_zero_iff.mp real
      refine Or.inr ?_
      by_cases sign : Scalar.signBit z.re = Scalar.signBit w.re
      · exact Or.inl ⟨zero, alike.im.symm.trans zero, alike.re.eq_of_signBit sign⟩
      · have isZero : (z.re == 0) = true := beq_zero_iff.mpr (alike.re.zero_of_signBit sign)
        exact Or.inr ⟨zero, alike.im.symm.trans zero, beq_iff.mpr ⟨isZero, real⟩, sign⟩

/-- The real parts of equal numbers are numbers. -/
theorem isNaN_re_of_beq (equal : (z == w) = true) :
    Scalar.isNaN z.re = false ∧ Scalar.isNaN w.re = false := by
  have number := isNaN_of_beq equal
  rw [isNaN, Bool.or_eq_false_iff] at number
  exact ⟨number.1, (alike_of_beq equal).re.isNaN ▸ number.1⟩

omit [FloatingScalar R] in
/-- A sign is given by negating or by leaving the scalar as it is. -/
theorem signedLike_cases (sign x : R) : signedLike sign x = -x ∨ signedLike sign x = x := by
  unfold signedLike
  split
  · exact Or.inl rfl
  · exact Or.inr rfl

/-- Different signs make a scalar opposite. -/
theorem signedLike_opposite {sign sign' : R} (x : R)
    (differ : Scalar.signBit sign ≠ Scalar.signBit sign') :
    signedLike sign' x = -signedLike sign x := by
  unfold signedLike
  cases first : Scalar.signBit sign <;> cases second : Scalar.signBit sign'
  · exact absurd (first.trans second.symm) differ
  · rfl
  · exact (FloatingScalar.neg_neg x).symm
  · exact absurd (first.trans second.symm) differ

/-- Numbers of one real part do not agree if the imaginary part of the one is zero and that of the
other is a number that is not, of either sign. -/
theorem not_agree_of_zero {length x t : R} (number : Scalar.isNaN length = false)
    (zero : Same x 0) (numberToo : Scalar.isNaN t = false) (nonzero : (t == 0) = false) (sign : R) :
    ¬Agree ⟨length, x⟩ ⟨length, signedLike sign t⟩ := by
  have signedNumber : Scalar.isNaN (signedLike sign t) = false := by
    rcases signedLike_cases sign t with opposite | same
    · rw [opposite, FloatingScalar.isNaN_neg, numberToo]
    · rw [same, numberToo]
  rintro (notANumber | notANumber | equal)
  · rw [isNaN, number, zero.isNaN, isNaN_zero] at notANumber
    cases notANumber
  · rw [isNaN, number, signedNumber] at notANumber
    cases notANumber
  · refine beq_zero_eq_false_iff.mp nonzero ?_
    have signed : Same (signedLike sign t) 0 := (alike_of_beq equal).im.symm.trans zero
    rcases signedLike_cases sign t with opposite | same
    · rw [opposite] at signed
      have negated := signed.neg
      rw [FloatingScalar.neg_neg] at negated
      exact negated.trans neg_zero_same
    · rwa [same] at signed

omit [FloatingScalar R] in
/-- The decimal logarithm is the principal one over that of ten, part by part. -/
theorem log10_eq (z : Complex R) :
    z.log10 = ⟨RealFunctions.log z.abs / RealFunctions.ln10, z.argSigned / RealFunctions.ln10⟩ :=
  rfl

omit [FloatingScalar R] in
/-- On the negative axis the cube root is off the axis, on the side of the operand. -/
theorem cbrt_left (real : (z.im == 0) = true) (sign : Scalar.signBit z.re = true) :
    z.cbrt = ⟨RealFunctions.cbrt (-z.re) / 2.0,
      signedLike z.im (RealFunctions.sqrt 3.0 * (RealFunctions.cbrt (-z.re) / 2.0))⟩ := by
  rw [cbrt, if_pos real, if_pos sign]

omit [FloatingScalar R] in
/-- On the positive axis the cube root is the real one. -/
theorem cbrt_right (real : (z.im == 0) = true) (sign : Scalar.signBit z.re = false) :
    z.cbrt = ⟨RealFunctions.cbrt z.re, z.im⟩ := by
  rw [cbrt, if_pos real, if_neg (Bool.eq_false_iff.mp sign)]

/-- On the two sides of the cut the cube roots are conjugate. -/
theorem cbrt_conj (equal : (z == w) = true) (cut : CutApart z w) : Alike w.cbrt z.cbrt.conj := by
  have alike := alike_of_beq equal
  obtain ⟨real, sign, signToo, differ⟩ := cut
  have realToo : (w.im == 0) = true := (alike.im.beq (Same.refl 0)) ▸ real
  have sameRe : z.re = w.re := alike.re.eq_of_signBit (sign.trans signToo.symm)
  rw [cbrt_left real sign, cbrt_left realToo signToo, sameRe, signedLike_opposite _ differ]
  exact Alike.refl _

end Operands

section UpperSide

variable {z w : Complex R}

/-- The number with a zero imaginary part taken as positive. -/
def upper (z : Complex R) : Complex R := ⟨z.re, z.im + 0⟩

/-- Taking a zero as positive makes no difference but for its sign. -/
theorem upper_alike (z : Complex R) : Alike (upper z) z :=
  ⟨Same.refl _, FloatingScalar.add_zero (Same.refl 0)⟩

/-- Equal numbers stay equal when zeros are taken as positive. -/
theorem upper_beq (equal : (z == w) = true) : (upper z == upper w) = true := by
  rw [(upper_alike z).beq (upper_alike w), equal]

/-- With zeros taken as positive, equal numbers are on one side of the cut. -/
theorem not_cutApart_upper (equal : (z == w) = true) : ¬CutApart (upper z) (upper w) := by
  rintro ⟨_, _, _, differ⟩
  apply differ
  rcases equal_cases equal with ⟨_, sameIm⟩ | ⟨zero, zeroToo, _⟩ | ⟨zero, zeroToo, _⟩
  · rw [upper, upper, sameIm]
  · rw [upper, upper, zero_add_zero zero, zero_add_zero zeroToo]
  · rw [upper, upper, zero_add_zero zero, zero_add_zero zeroToo]

/-- Taking a zero imaginary part as positive leaves the halves of the axis as they are. -/
theorem originApart_upper : OriginApart (upper z) (upper w) ↔ OriginApart z w := by
  rw [OriginApart, OriginApart, (upper_alike z).beq (Alike.refl 0)]
  rfl

end UpperSide

variable [ElementaryLaws R]

section Angles

variable {z w : Complex R}

/-- Equal numbers have one modulus. -/
theorem abs_eq_of_beq (equal : (z == w) = true) : z.abs = w.abs :=
  hypot_congr (alike_of_beq equal).re (alike_of_beq equal).im

/-- The logarithm of the modulus of zero is infinite. -/
theorem isInfinite_log_abs (zero : (z == 0) = true) :
    Scalar.isInfinite (RealFunctions.log z.abs) = true := by
  have modulus : z.abs = 0 := (abs_eq_of_beq zero).trans hypot_zero
  rw [modulus, log_zero]

/-- The signs of zeros do not matter for the angle, unless they put the numbers on different sides
of the cut or on different halves of the axis. -/
theorem argSigned_same (equal : (z == w) = true) (notCut : ¬CutApart z w)
    (notOrigin : ¬OriginApart z w) : Same z.argSigned w.argSigned := by
  have alike := alike_of_beq equal
  have number := (isNaN_re_of_beq equal).1
  rcases equal_cases equal with ⟨notReal, sameIm⟩ | ⟨zero, zeroToo, sameRe⟩ | ⟨_, _, apart⟩
  · rw [argSigned, argSigned, ← sameIm]
    exact atan2_congr notReal alike.re
  · have real := beq_zero_iff.mpr zero
    have realToo := beq_zero_iff.mpr zeroToo
    rw [argSigned, argSigned, ← sameRe]
    cases sign : Scalar.signBit z.re with
    | false => exact (atan2_right real number sign).trans (atan2_right realToo number sign).symm
    | true =>
        have sameSign : Scalar.signBit z.im = Scalar.signBit w.im := by
          by_contra differ
          exact notCut ⟨real, sign, sameRe ▸ sign, differ⟩
        rw [alike.im.eq_of_signBit sameSign]
  · exact absurd apart notOrigin

/-- On the two sides of the cut the angles are opposite. -/
theorem argSigned_opposite (equal : (z == w) = true) (cut : CutApart z w) :
    w.argSigned = -z.argSigned := by
  obtain ⟨real, sign, signToo, differ⟩ := cut
  obtain ⟨number, numberToo⟩ := isNaN_re_of_beq equal
  have realToo : (w.im == 0) = true := (alike_of_beq equal).im.beq (Same.refl 0) ▸ real
  have angle : z.argSigned = signedLike z.im halfTurn := atan2_left real number sign
  have angleToo : w.argSigned = signedLike w.im halfTurn := atan2_left realToo numberToo signToo
  rw [angle, angleToo, signedLike_opposite halfTurn differ]

/-- The angles of two zeros on different halves of the axis: one is zero and the other half a turn
of either sign. -/
theorem argSigned_originApart (equal : (z == w) = true) (apart : OriginApart z w) :
    Same z.argSigned 0 ∧ w.argSigned = signedLike w.im halfTurn ∨
      Same w.argSigned 0 ∧ z.argSigned = signedLike z.im halfTurn := by
  obtain ⟨isZero, differ⟩ := apart
  obtain ⟨number, numberToo⟩ := isNaN_re_of_beq equal
  have zero : Same z.im 0 := (alike_of_beq isZero).im
  have real : (z.im == 0) = true := beq_zero_iff.mpr zero
  have realToo : (w.im == 0) = true :=
    beq_zero_iff.mpr ((alike_of_beq equal).im.symm.trans zero)
  cases sign : Scalar.signBit z.re with
  | false =>
      have signToo : Scalar.signBit w.re = true := by
        rw [sign] at differ
        exact Bool.eq_true_of_not_eq_false differ.symm
      exact Or.inl ⟨atan2_right real number sign, atan2_left realToo numberToo signToo⟩
  | true =>
      have signToo : Scalar.signBit w.re = false := by
        rw [sign] at differ
        exact Bool.eq_false_of_not_eq_true differ.symm
      exact Or.inr ⟨atan2_right realToo numberToo signToo, atan2_left real number sign⟩

end Angles

section Logarithms

variable {z w : Complex R}

/-- Off the cut and the origin the logarithms of equal numbers are alike. -/
theorem logSigned_alike (equal : (z == w) = true) (notCut : ¬CutApart z w)
    (notOrigin : ¬OriginApart z w) : Alike z.logSigned w.logSigned := by
  refine ⟨?_, argSigned_same equal notCut notOrigin⟩
  rw [logSigned, logSigned, abs_eq_of_beq equal]

/-- Beside any number, what an odd function that vanishes at zero makes of the angles of two zeros
on different halves of the axis disagrees, if it does not vanish at half a turn. -/
theorem angles_disagree {length : R} (number : Scalar.isNaN length = false) (f : R → R)
    (odd : ∀ x, f (-x) = -f x) (vanishes : ∀ {x}, Same x 0 → Same (f x) 0)
    (turn : Scalar.isNaN (f halfTurn) = false) (nonzero : (f halfTurn == 0) = false)
    (equal : (z == w) = true) (apart : OriginApart z w) :
    ¬Agree ⟨length, f z.argSigned⟩ ⟨length, f w.argSigned⟩ := by
  have signed (sign : R) : f (signedLike sign halfTurn) = signedLike sign (f halfTurn) := by
    unfold signedLike
    split
    · exact odd halfTurn
    · rfl
  rcases argSigned_originApart equal apart with ⟨zero, angle⟩ | ⟨zero, angle⟩
  · rw [angle, signed]
    exact not_agree_of_zero number (vanishes zero) turn nonzero _
  · rw [angle, signed]
    exact fun agree => not_agree_of_zero number (vanishes zero) turn nonzero _ agree.symm

/-- The angles of two zeros on different halves of the axis disagree, beside any number. -/
theorem argSigned_disagree {length : R} (number : Scalar.isNaN length = false)
    (equal : (z == w) = true) (apart : OriginApart z w) :
    ¬Agree ⟨length, z.argSigned⟩ ⟨length, w.argSigned⟩ :=
  angles_disagree number (fun x => x) (fun _ => rfl) id (isNaN_of_isFinite halfTurn_finite)
    halfTurn_nonzero equal apart

/-- The logarithms of two zeros on different halves of the axis are different. -/
theorem logSigned_originApart (equal : (z == w) = true) (apart : OriginApart z w) :
    ¬Agree z.logSigned w.logSigned := by
  rw [logSigned, logSigned, ← abs_eq_of_beq equal]
  exact argSigned_disagree (isNaN_of_isInfinite (isInfinite_log_abs apart.1)) equal apart

/-- Off the cut and the origin the decimal logarithms of equal numbers are alike. -/
theorem log10_alike (equal : (z == w) = true) (notCut : ¬CutApart z w)
    (notOrigin : ¬OriginApart z w) : Alike z.log10 w.log10 :=
  (logSigned_alike equal notCut notOrigin).div _

/-- On the two sides of the cut the decimal logarithms are conjugate. -/
theorem log10_conj (equal : (z == w) = true) (cut : CutApart z w) :
    Alike w.log10 z.log10.conj := by
  rw [log10_eq, log10_eq, abs_eq_of_beq equal, argSigned_opposite equal cut,
    FloatingScalar.neg_div]
  exact Alike.refl _

/-- The decimal logarithms of two zeros on different halves of the axis are different. -/
theorem log10_originApart (equal : (z == w) = true) (apart : OriginApart z w) :
    ¬Agree z.log10 w.log10 := by
  have divided {x : R} (number : Scalar.isNaN x = false) :
      Scalar.isNaN (x / RealFunctions.ln10) = false :=
    isNaN_div number ln10_finite ln10_nonzero
  rw [log10_eq, log10_eq, ← abs_eq_of_beq equal]
  refine angles_disagree (divided (isNaN_of_isInfinite (isInfinite_log_abs apart.1)))
    (· / RealFunctions.ln10) (fun x => FloatingScalar.neg_div x _) (fun {x} zero => ?_)
    (divided (isNaN_of_isFinite halfTurn_finite)) halfTurn_div_ln10_nonzero equal apart
  refine (zero_div_or zero _).resolve_right ?_
  rw [divided (zero.isNaN.trans isNaN_zero)]
  exact Bool.false_ne_true

/-- The argument tells equal numbers apart only if they are zeros on different halves of the
axis. -/
theorem arg_agrees_iff (equal : (z == w) = true) :
    (Scalar.isNaN z.arg = true ∨ Scalar.isNaN w.arg = true ∨ (z.arg == w.arg) = true) ↔
      ¬OriginApart z w := by
  rw [← originApart_upper, ← agree_imaginary_iff]
  constructor
  · exact fun agree apart => argSigned_disagree isNaN_zero (upper_beq equal) apart agree
  · intro notOrigin
    have same := argSigned_same (upper_beq equal) (not_cutApart_upper equal) notOrigin
    exact Alike.agree ⟨Same.refl 0, same⟩

/-- So does the logarithm. -/
theorem log_agrees_iff (equal : (z == w) = true) : Agree z.log w.log ↔ ¬OriginApart z w := by
  rw [← originApart_upper]
  constructor
  · exact fun agree apart => logSigned_originApart (upper_beq equal) apart agree
  · exact fun notOrigin =>
      (logSigned_alike (upper_beq equal) (not_cutApart_upper equal) notOrigin).agree

end Logarithms

section Roots

variable {z w : Complex R}

/-- Off the axis equal numbers have one imaginary part, and the same angle. -/
theorem off_axis (equal : (z == w) = true) (notReal : (z.im == 0) = false) :
    z.im = w.im ∧ Same z.argSigned w.argSigned := by
  have notZero : ¬Same z.im 0 := beq_zero_eq_false_iff.mp notReal
  have notCut : ¬CutApart z w := fun cut => notZero (beq_zero_iff.mp cut.1)
  have notOrigin : ¬OriginApart z w := fun apart => notZero (alike_of_beq apart.1).im
  refine ⟨?_, argSigned_same equal notCut notOrigin⟩
  rcases equal_cases equal with ⟨_, sameIm⟩ | ⟨zero, _⟩ | ⟨zero, _⟩
  · exact sameIm
  · exact absurd zero notZero
  · exact absurd zero notZero

/-- The square root does not look at the signs of zeros. -/
theorem sqrt_alike (equal : (z == w) = true) : Alike z.sqrt w.sqrt := by
  have alike := alike_of_beq equal
  have nearAxis : z.isReal = w.isReal := by
    rw [isReal, isReal, Scalar.isNegligible, Scalar.isNegligible, alike.im.abs]
  have positive : decide (0 ≤ z.re) = decide (0 ≤ w.re) :=
    decide_eq_decide.mpr ((Same.refl 0).le alike.re)
  have real : (z.im == 0) = (w.im == 0) := alike.im.beq (Same.refl 0)
  have imaginary : (z.re == 0) = (w.re == 0) := alike.re.beq (Same.refl 0)
  unfold sqrt
  rw [nearAxis, positive, real]
  split
  · exact ⟨sqrt_congr alike.re, Same.refl 0⟩
  · split
    · exact ⟨Same.refl 0, sqrt_congr alike.re.neg⟩
    · next notRealToo =>
      have notReal : (z.im == 0) = false := real.trans (Bool.eq_false_iff.mpr notRealToo)
      obtain ⟨sameIm, sameAngle⟩ := off_axis equal notReal
      unfold sqrtSigned
      rw [notReal, ← real, notReal, imaginary, sameIm, abs_eq_of_beq equal]
      simp only [Bool.false_eq_true, if_false]
      split
      · exact Alike.refl _
      · exact ofPolar_alike (Same.refl _) (sameAngle.div _)

/-- The cube root of a zero on the positive axis is zero. -/
theorem cbrt_zero_right (zero : Alike z 0) (sign : Scalar.signBit z.re = false) :
    Alike z.cbrt 0 := by
  rw [cbrt_right (beq_zero_iff.mpr zero.im) sign]
  exact ⟨(cbrt_congr zero.re).trans cbrt_zero, zero.im⟩

/-- The cube root of a zero on the negative axis is zero as well, unless it is not a number. -/
theorem cbrt_zero_left (zero : Alike z 0) (sign : Scalar.signBit z.re = true) :
    Agree z.cbrt 0 := by
  have root : Same (RealFunctions.cbrt (-z.re)) 0 :=
    (cbrt_congr (zero.re.neg.trans neg_zero_same)).trans cbrt_zero
  have half := zero_div_or root 2.0
  have side : Same (RealFunctions.sqrt 3.0 * (RealFunctions.cbrt (-z.re) / 2.0)) 0 ∨
      Scalar.isNaN (RealFunctions.sqrt 3.0 * (RealFunctions.cbrt (-z.re) / 2.0)) = true := by
    rcases half with zero | notANumber
    · exact mul_zero_or _ zero
    · exact Or.inr (isNaN_mul_right notANumber _)
  rw [cbrt_left (beq_zero_iff.mpr zero.im) sign]
  refine agree_zero half ?_
  simp only [signedLike]
  split
  · rw [FloatingScalar.isNaN_neg]
    exact side.imp_left fun zero => zero.neg.trans neg_zero_same
  · exact side

/-- Off the cut the cube root does not look at the signs of zeros. -/
theorem cbrt_agree (equal : (z == w) = true) (notCut : ¬CutApart z w) : Agree z.cbrt w.cbrt := by
  have alike := alike_of_beq equal
  have same : (z.im == 0) = (w.im == 0) := alike.im.beq (Same.refl 0)
  have imaginary : (z.re == 0) = (w.re == 0) := alike.re.beq (Same.refl 0)
  cases real : z.im == 0 with
  | false =>
      obtain ⟨sameIm, sameAngle⟩ := off_axis equal real
      refine Alike.agree ?_
      unfold cbrt
      rw [real, ← same, real, imaginary, sameIm, abs_eq_of_beq equal]
      simp only [Bool.false_eq_true, if_false]
      split
      · exact Alike.refl _
      · exact ofPolar_alike (Same.refl _) (sameAngle.div _)
  | true =>
      have realToo := same.symm.trans real
      have zeros (differ : Scalar.signBit z.re ≠ Scalar.signBit w.re) :
          Alike z 0 ∧ Alike w 0 := by
        have zero : Alike z 0 := ⟨alike.re.zero_of_signBit differ, beq_zero_iff.mp real⟩
        exact ⟨zero, alike.re.symm.trans zero.re, alike.im.symm.trans zero.im⟩
      -- Real parts of different signs are zeros, of which both roots are zero.
      cases sign : Scalar.signBit z.re <;> cases signToo : Scalar.signBit w.re
      · rw [cbrt_right real sign, cbrt_right realToo signToo]
        exact Alike.agree ⟨cbrt_congr alike.re, alike.im⟩
      · obtain ⟨zero, zeroToo⟩ := zeros (by rw [sign, signToo]; exact Bool.false_ne_true)
        exact ((cbrt_zero_left zeroToo signToo).trans_alike
          (cbrt_zero_right zero sign).symm).symm
      · obtain ⟨zero, zeroToo⟩ := zeros (by rw [sign, signToo]; exact Bool.false_ne_true.symm)
        exact (cbrt_zero_left zero sign).trans_alike (cbrt_zero_right zeroToo signToo).symm
      · have sameIm : z.im = w.im := by
          refine alike.im.eq_of_signBit ?_
          by_contra differ
          exact notCut ⟨real, sign, signToo, differ⟩
        have sameRe : z.re = w.re := alike.re.eq_of_signBit (sign.trans signToo.symm)
        rw [cbrt_left real sign, cbrt_left realToo signToo, sameIm, sameRe]
        exact (Alike.refl _).agree

end Roots

section Powers

variable {z w : Complex R}

/-- Off the cut a real power does not look at the signs of zeros. -/
theorem powReal_agree (equal : (z == w) = true) (notCut : ¬CutApart z w) (x : R) :
    Agree (z.powReal x) (w.powReal x) := by
  unfold powReal
  rw [← beq_zero_of_beq equal]
  split
  · exact (Alike.refl _).agree
  · next notZeroPower =>
    split
    · exact (Alike.refl _).agree
    · next nonzero =>
      -- At zeros the modulus is infinite, and where the angle is zero the sine makes it no number.
      by_cases apart : OriginApart z w
      · have modulus : z.abs = 0 := (abs_eq_of_beq apart.1).trans hypot_zero
        have nonfinite : Scalar.isFinite (RealFunctions.pow z.abs x) = false := by
          rw [modulus]
          refine pow_zero (fun positive => notZeroPower ?_) (Bool.eq_false_iff.mpr nonzero)
          rw [apart.1, decide_eq_true positive]
          rfl
        have undefinedAngle {u : Complex R} (zero : Same u.argSigned 0) :
            Same (u.argSigned * x) (-(u.argSigned * x)) := by
          rw [← FloatingScalar.neg_mul]
          exact (same_neg_of_zero zero).mul (Same.refl x)
        rcases argSigned_originApart equal apart with ⟨zero, _⟩ | ⟨zero, _⟩
        · exact Or.inl (isNaN_ofPolar nonfinite (undefinedAngle zero))
        · rw [abs_eq_of_beq equal] at nonfinite
          exact Or.inr (Or.inl (isNaN_ofPolar nonfinite (undefinedAngle zero)))
      · rw [abs_eq_of_beq equal]
        exact (ofPolar_alike (Same.refl _)
          ((argSigned_same equal notCut apart).mul (Same.refl x))).agree

/-- On the two sides of the cut real powers are conjugate. -/
theorem powReal_conj (equal : (z == w) = true) (cut : CutApart z w) (x : R) :
    Alike (w.powReal x) (z.powReal x).conj := by
  unfold powReal
  rw [← beq_zero_of_beq equal]
  split
  · exact conj_zero_alike
  · split
    · exact conj_one_alike
    · rw [← abs_eq_of_beq equal, argSigned_opposite equal cut, FloatingScalar.neg_mul]
      exact ofPolar_conj _ (Same.refl _)

/-- Where the logarithm of the modulus is not finite, a power is zero or not a number. -/
theorem exp_mul_logSigned (e : Complex R)
    (nonfinite : Scalar.isFinite (RealFunctions.log z.abs) = false) :
    exp (e * z.logSigned) = 0 ∨ (exp (e * z.logSigned)).isNaN = true :=
  exp_nonfinite (isFinite_sub_left (isFinite_mul_right nonfinite e.re) _)
    (isFinite_add_right (isFinite_mul_right nonfinite e.im) _)

/-- Off the cut a power does not look at the signs of zeros. -/
theorem pow_agree (equal : (z == w) = true) (notCut : ¬CutApart z w) (e : Complex R) :
    Agree (z.pow e) (w.pow e) := by
  have same := beq_zero_of_beq equal
  unfold pow
  rw [← same]
  split
  · exact (Alike.refl _).agree
  · split
    · exact (Alike.refl _).agree
    · cases zero : z == 0 with
      | true =>
          have nonfinite := isFinite_of_isInfinite (isInfinite_log_abs zero)
          exact agree_of_zero_or (exp_mul_logSigned e nonfinite)
            (exp_mul_logSigned e (abs_eq_of_beq equal ▸ nonfinite))
      | false =>
          have notOrigin : ¬OriginApart z w := fun apart =>
            Bool.eq_false_iff.mp zero apart.1
          exact (exp_alike ((Alike.refl e).mul (logSigned_alike equal notCut notOrigin))).agree

/-- A power does not look at the signs of zeros in the exponent. -/
theorem pow_alike {e e' : Complex R} (alike : Alike e e') : Alike (z.pow e) (z.pow e') := by
  have nearAxis : e.isReal = e'.isReal := by
    rw [isReal, isReal, Scalar.isNegligible, Scalar.isNegligible, alike.im.abs]
  have positive : decide (0 < e.re) = decide (0 < e'.re) :=
    decide_eq_decide.mpr ((Same.refl 0).lt alike.re)
  unfold pow
  rw [nearAxis, positive, alike.beq (Alike.refl 0)]
  split
  · exact Alike.refl 0
  · split
    · exact Alike.refl 1
    · exact exp_alike (alike.mul (Alike.refl _))

/-- The products of the logarithms on the two sides of the cut with a number and with its conjugate
are conjugate. -/
theorem mul_logSigned_conj (equal : (z == w) = true) (cut : CutApart z w) (e : Complex R) :
    Alike (e * w.logSigned) (e.conj * z.logSigned).conj := by
  have opposite : w.argSigned = -z.argSigned := argSigned_opposite equal cut
  have length : RealFunctions.log w.abs = RealFunctions.log z.abs := by
    rw [abs_eq_of_beq equal]
  constructor
  · change Same (e.re * RealFunctions.log w.abs - e.im * w.argSigned)
      (e.re * RealFunctions.log z.abs - -e.im * z.argSigned)
    rw [length, opposite, FloatingScalar.mul_neg, FloatingScalar.neg_mul]
  · change Same (e.re * w.argSigned + e.im * RealFunctions.log w.abs)
      (-(e.re * z.argSigned + -e.im * RealFunctions.log z.abs))
    rw [length, opposite, FloatingScalar.mul_neg, FloatingScalar.neg_mul]
    have distributed := neg_add_neg (e.re * z.argSigned) (-(e.im * RealFunctions.log z.abs))
    rwa [FloatingScalar.neg_neg] at distributed

/-- On the two sides of the cut powers with conjugate exponents are conjugate. -/
theorem pow_conj (equal : (z == w) = true) (cut : CutApart z w) (e : Complex R) :
    Alike (w.pow e) (z.pow e.conj).conj := by
  have nearAxis : e.conj.isReal = e.isReal := by
    rw [isReal, isReal, Scalar.isNegligible, Scalar.isNegligible, conj, FloatingScalar.abs_neg]
  have zero : (e.conj == 0) = (e == 0) :=
    congrArg ((e.re == 0) && ·) ((neg_beq e.im 0).trans ((Same.refl e.im).beq neg_zero_same))
  unfold pow
  rw [← beq_zero_of_beq equal, nearAxis, zero, show e.conj.re = e.re from rfl]
  split
  · exact conj_zero_alike
  · split
    · exact conj_one_alike
    · exact (exp_alike (mul_logSigned_conj equal cut e)).trans (exp_conj _)

/-- On the two sides of the cut powers with a real exponent are conjugate. -/
theorem pow_conj_of_real (equal : (z == w) = true) (cut : CutApart z w) {e : Complex R}
    (real : (e.im == 0) = true) : Alike (w.pow e) (z.pow e).conj := by
  have selfConjugate : Alike e.conj e :=
    ⟨Same.refl _, (same_neg_of_zero (beq_zero_iff.mp real)).symm⟩
  exact (pow_conj equal cut e).trans (pow_alike selfConjugate).conj

end Powers

/-- The principal values of equal numbers. The square roots agree. The arguments and the logarithms
agree unless the numbers are zeros on different halves of the axis, and then they do not; the same
zeros are told apart by the logarithm to base ten. Otherwise that logarithm, and in any case the
cube root, the real powers and the powers with a real exponent, agree off the cut and are conjugate
on its two sides. A power with any exponent agrees off the cut; on its two sides a power is the
conjugate of that with the conjugate exponent, and so the two agree only if these two powers of the
same base are conjugate. -/
theorem principal_values_of_equal {z w : Complex R} (equal : (z == w) = true) (e : Complex R)
    (x : R) :
    Agree z.sqrt w.sqrt ∧
    ((Scalar.isNaN z.arg = true ∨ Scalar.isNaN w.arg = true ∨ (z.arg == w.arg) = true) ↔
      ¬OriginApart z w) ∧
    (Agree z.log w.log ↔ ¬OriginApart z w) ∧
    (OriginApart z w → ¬Agree z.log10 w.log10) ∧
    (¬OriginApart z w → SplitAtCut log10 z w) ∧
    SplitAtCut cbrt z w ∧
    SplitAtCut (powReal · x) z w ∧
    (¬CutApart z w → Agree (z.pow e) (w.pow e)) ∧
    (CutApart z w → Agree (w.pow e) (z.pow e.conj).conj ∧
      (Agree (z.pow e) (w.pow e) ↔ Agree (z.pow e) (z.pow e.conj).conj)) ∧
    ((e.im == 0) = true → SplitAtCut (pow · e) z w) := by
  refine ⟨(sqrt_alike equal).agree, arg_agrees_iff equal, log_agrees_iff equal,
    log10_originApart equal, fun notOrigin => ?_, ?_, ?_, fun notCut => pow_agree equal notCut e,
    fun cut => ?_, fun real => ?_⟩
  · exact splitAtCut_of (fun notCut => (log10_alike equal notCut notOrigin).agree)
      fun cut => (log10_conj equal cut).agree
  · exact splitAtCut_of (cbrt_agree equal) fun cut => (cbrt_conj equal cut).agree
  · exact splitAtCut_of (fun notCut => powReal_agree equal notCut x)
      fun cut => (powReal_conj equal cut x).agree
  · have conjugate := pow_conj equal cut e
    exact ⟨conjugate.agree, fun agree => agree.trans_alike conjugate,
      fun agree => agree.trans_alike conjugate.symm⟩
  · exact splitAtCut_of (fun notCut => pow_agree equal notCut e)
      fun cut => (pow_conj_of_real equal cut real).agree

/-- The two sides of the cut at minus one, the exponent of the square root, and `i` for one that is
not real. -/
theorem principal_values_of_minus_one :
    let z : Complex BySeries := ⟨-1, 0⟩
    let w : Complex BySeries := ⟨-1, -0⟩
    let half : Complex BySeries := ⟨0.5, 0⟩
    CutApart z w ∧ Agree z.sqrt w.sqrt ∧ Agree z.log w.log ∧ Agree w.log10 z.log10.conj ∧
      Agree w.cbrt z.cbrt.conj ∧ Agree (w.powReal 0.5) (z.powReal 0.5).conj ∧
      Agree (w.pow half) (z.pow half).conj ∧ Agree (w.pow I) (z.pow (conj I)).conj := by
  intro z w half
  have equal : (z == w) = true := by decide +kernel
  have cut : CutApart z w := by
    refine ⟨?_, ?_, ?_, ?_⟩ <;> decide +kernel
  have notOrigin : ¬OriginApart z w := fun apart => by
    have nonzero : (z == 0) = false := by decide +kernel
    exact Bool.eq_false_iff.mp nonzero apart.1
  obtain ⟨sqrt, _, log, _, log10, cbrt, powReal, _, _, powHalf⟩ :=
    principal_values_of_equal equal half 0.5
  obtain ⟨_, _, _, _, _, _, _, _, powI, _⟩ := principal_values_of_equal equal I 0.5
  exact ⟨cut, sqrt, log.mpr notOrigin, ((log10 notOrigin).2 cut).1, (cbrt.2 cut).1,
    (powReal.2 cut).1, ((powHalf (by decide +kernel)).2 cut).1, (powI cut).1⟩

/-- The cube roots of two equal hardware numbers on the two sides of the cut are different. So are
the square roots as powers, of which one is not the exponential of the multiple of the logarithm,
and the powers with the exponent `i`. -/
theorem principal_values_differ :
    ((⟨-8, 0⟩ : Complex Float) == ⟨-8, -0⟩) = true ∧
    ¬Agree (cbrt (⟨-8, 0⟩ : Complex Float)) (cbrt ⟨-8, -0⟩) ∧
    ((⟨-1, 0⟩ : Complex BySeries) == ⟨-1, -0⟩) = true ∧
    ¬Agree (pow (⟨-1, 0⟩ : Complex BySeries) ⟨0.5, 0⟩) (pow ⟨-1, -0⟩ ⟨0.5, 0⟩) ∧
    ¬Agree (pow (⟨-1, -0⟩ : Complex BySeries) ⟨0.5, 0⟩)
      (exp ((⟨0.5, 0⟩ : Complex BySeries) * log ⟨-1, -0⟩)) ∧
    ¬Agree (pow (⟨-1, 0⟩ : Complex BySeries) I) (pow ⟨-1, -0⟩ I) := by
  refine ⟨?_, ?_, ?_, ?_, ?_, ?_⟩ <;> decide +kernel

end RootFinding.Complex
