import RootFinding.Proofs.Elementary.SpecialValues

/-!
# Elementary functions by series

Elementary functions of hardware numbers by the first terms of their series: close to the functions
where the series converge fast, and with their special values. So there are functions of which the
special values hold, and which can be evaluated in a proof.
-/

namespace RootFinding

open FloatingScalar

namespace Series

/-- The value of a polynomial by its coefficients from the lowest degree up. -/
def value (coefficients : List Float) (x : Float) : Float :=
  coefficients.foldr (fun c rest => c + x * rest) 0

/-- The reciprocals of the factorials of `first`, `first + step` and so on. -/
def reciprocals (first step : Nat) : List Float :=
  (List.range 16).map fun n => 1 / (first + step * n).factorial.toFloat

/-- A list with every other number negated. -/
def alternating (coefficients : List Float) : List Float :=
  coefficients.zipIdx.map fun (c, n) => if n % 2 == 0 then c else -c

/-- Half a turn. -/
def pi : Float := 3.141592653589793

/-- The exponential by its series. -/
def exp (x : Float) : Float := value (reciprocals 0 1) x

/-- The sine by its series. -/
def sin (x : Float) : Float := x * value (alternating (reciprocals 1 2)) (x * x)

/-- The cosine by its series. -/
def cos (x : Float) : Float := value (alternating (reciprocals 0 2)) (x * x)

/-- The logarithm, by the series around one. -/
def log (x : Float) : Float :=
  if x == 0 then -Scalar.infinity
  else (x - 1) * value (alternating ((List.range 16).map fun n => 1 / (n + 1).toFloat)) (x - 1)

/-- Powers by exponential and logarithm. -/
def pow (x y : Float) : Float := exp (y * log x)

/-- The arctangent by its series. -/
def arctan (t : Float) : Float :=
  t * value (alternating ((List.range 16).map fun n => 1 / (2 * n + 1).toFloat)) (t * t)

/-- The angle of a vector. -/
def atan2 (y x : Float) : Float :=
  if y == 0 then if Scalar.signBit x then Complex.signedLike y pi else y
  else if x == 0 then Complex.signedLike y (pi / 2)
  else if x < 0 then arctan (y / x) + Complex.signedLike y pi
  else arctan (y / x)

end Series

/-- Hardware numbers whose elementary functions are series. -/
def BySeries : Type := Float

instance : RealFunctions BySeries :=
  { (inferInstance : RealFunctions Float) with
    exp := Series.exp
    log := Series.log
    sin := Series.sin
    cos := Series.cos
    pow := Series.pow
    atan2 := Series.atan2 }

instance : FloatingScalar BySeries := inferInstanceAs (FloatingScalar Float)

namespace Series

/-- A series at what is not a number is not a number. -/
theorem isNaN_value {c : Float} (coefficients : List Float) {x : Float}
    (notANumber : Scalar.isNaN x = true) : Scalar.isNaN (value (c :: coefficients) x) = true :=
  isNaN_add_right (isNaN_mul_left notANumber _) c

/-- A series at what is not finite is not finite. -/
theorem isFinite_value {c : Float} (coefficients : List Float) {x : Float}
    (nonfinite : Scalar.isFinite x = false) :
    Scalar.isFinite (value (c :: coefficients) x) = false :=
  isFinite_add_right (isFinite_mul_left nonfinite _) c

/-- Opposite numbers have one square. -/
theorem square_neg (x : Float) : -x * -x = x * x := by
  rw [FloatingScalar.neg_mul, FloatingScalar.mul_neg, FloatingScalar.neg_neg]

/-- The sine is odd. -/
theorem sin_neg (x : Float) : sin (-x) = -sin x := by
  rw [sin, sin, square_neg, FloatingScalar.neg_mul]

/-- The cosine is even. -/
theorem cos_neg (x : Float) : cos (-x) = cos x := by
  rw [cos, cos, square_neg]

/-- On the axis to the right the angle is the zero of the second coordinate. -/
theorem atan2_right {y x : Float} (real : (y == 0) = true) (sign : Scalar.signBit x = false) :
    atan2 y x = y := by
  rw [atan2, if_pos real, if_neg (Bool.eq_false_iff.mp sign)]

/-- On the axis to the left the angle is half a turn, with the sign of the second coordinate. -/
theorem atan2_left {y x : Float} (real : (y == 0) = true) (sign : Scalar.signBit x = true) :
    atan2 y x = Complex.signedLike y pi := by
  rw [atan2, if_pos real, if_pos sign]

/-- Off the axis the sign of a zero first coordinate does not matter for the angle. -/
theorem atan2_congr {y x x' : Float} (notReal : (y == 0) = false) (same : Same x x') :
    atan2 y x = atan2 y x' := by
  refine same.eq_of_zeros (atan2 y) ?_
  have zero : ((0 : Float) == 0) = true := by decide +kernel
  have zeroToo : ((-0 : Float) == 0) = true := by decide +kernel
  rw [atan2, atan2, notReal, if_pos zero, if_pos zeroToo]
  rfl

/-- Half a turn is the constant. -/
theorem halfTurn_eq : (halfTurn : BySeries) = pi := by
  have turn : atan2 0 (-1) = Complex.signedLike 0 pi :=
    atan2_left (by decide +kernel) (by decide +kernel)
  have sign : ¬Scalar.signBit (0 : Float) = true := by decide +kernel
  rw [Complex.signedLike, if_neg sign] at turn
  exact turn

/-- The signs of zeros do not matter for a length. -/
theorem hypot_congr {x x' y y' : Float} (sameX : Same x x') (sameY : Same y y') :
    RealFunctions.hypot x y = RealFunctions.hypot x' y' := by
  have unsigned {x y : Float} (same : Same x y) :
      (Binary.binary64.decode x.toBits.toNat).unsigned =
        (Binary.binary64.decode y.toBits.toNat).unsigned :=
    same.eq_of_zeros (fun x => (Binary.binary64.decode x.toBits.toNat).unsigned)
      (by decide +kernel)
  change Binary.onFloats _ _ _ = Binary.onFloats _ _ _
  rw [Binary.onFloats, Binary.onFloats, Binary.hypot_congr _ (unsigned sameX) (unsigned sameY)]

instance : ElementaryLaws BySeries where
  hypot_congr := hypot_congr
  hypot_zero := by
    change Binary.onFloats _ (0 : Float) 0 = 0
    decide +kernel
  log_zero := by decide +kernel
  exp_congr := same_of_zeros exp (by decide +kernel)
  exp_notANumber := isNaN_value _
  sin_congr := same_of_zeros sin (by decide +kernel)
  sin_neg x := same_of_eq (R := Float) (sin_neg x)
  cos_congr := same_of_zeros cos (by decide +kernel)
  cos_neg x := same_of_eq (R := Float) (cos_neg x)
  sqrt_congr := same_of_zeros Float.sqrt (by decide +kernel)
  cbrt_congr := same_of_zeros (Binary.onFloat Binary.binary64.cbrt) (by decide +kernel)
  cbrt_zero := same_of_beq (by decide +kernel)
  pow_zero _ _ := isFinite_value _ (isFinite_mul_right (by decide +kernel) _)
  atan2_right real _ sign :=
    (same_of_eq (R := Float) (atan2_right real sign)).trans (beq_zero_iff.mp real)
  atan2_left := by
    intro y x real _ sign
    rw [halfTurn_eq]
    exact atan2_left real sign
  atan2_congr notReal same := same_of_eq (R := Float) (atan2_congr notReal same)
  halfTurn_finite := by
    rw [halfTurn_eq]
    decide +kernel
  halfTurn_nonzero := by
    rw [halfTurn_eq]
    decide +kernel
  ln10_finite := by decide +kernel
  ln10_nonzero := by decide +kernel
  halfTurn_div_ln10_nonzero := by
    rw [halfTurn_eq]
    decide +kernel

end Series

end RootFinding
