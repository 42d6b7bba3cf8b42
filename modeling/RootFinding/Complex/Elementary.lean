import RootFinding.Complex.Basic

/-!
# Elementary functions of a complex variable

Principal values. The cut of the logarithm and of the roots is the negative real axis, and
there are two conventions for a point on it. The functions with `Signed` in their name, and
everything defined from them, approach the cut from the side that the sign of a zero
imaginary part tells. `arg`, `log` and `sqrt` take a negative zero as zero, so that the
whole axis belongs to the upper side.
-/

namespace RootFinding.Complex

variable {R : Type} [RealFunctions R]

/-- `x`, negated if `sign` carries a minus sign. -/
def signedLike (sign x : R) : R := if Scalar.signBit sign then -x else x

/-- The number with this modulus and argument. -/
def ofPolar (modulus angle : R) : Complex R :=
  ⟨modulus * RealFunctions.cos angle, modulus * RealFunctions.sin angle⟩

/-- The argument, in which a negative zero imaginary part is below the axis. -/
def argSigned (z : Complex R) : R := RealFunctions.atan2 z.im z.re

/-- The argument, half a turn all along the negative real axis. -/
def arg (z : Complex R) : R := RealFunctions.atan2 (z.im + 0) z.re

/-- The exponential. Where the modulus of the result is infinite or zero and its angle
unknown, or the angle is zero, the result is stated without the sine and cosine of the
angle. -/
def exp (z : Complex R) : Complex R :=
  if Scalar.isInfinite z.re && z.re < 0 && !Scalar.isFinite z.im then ⟨0, 0⟩
  else if Scalar.isInfinite z.re && !(z.re < 0) && (z.im == 0 || !Scalar.isFinite z.im) then
    ⟨z.re, if Scalar.isInfinite z.im then z.im - z.im else z.im⟩
  else if Scalar.isNaN z.re && z.im == 0 then z
  else ofPolar (RealFunctions.exp z.re) z.im

/-- The logarithm, in which a negative zero imaginary part is below the cut. -/
def logSigned (z : Complex R) : Complex R := ⟨RealFunctions.log z.abs, z.argSigned⟩

/-- The logarithm. -/
def log (z : Complex R) : Complex R := logSigned ⟨z.re, z.im + 0⟩

/-- The logarithm to base ten. -/
def log10 (z : Complex R) : Complex R := z.logSigned / (RealFunctions.ln10 : R)

/-- The square root, in which a negative zero imaginary part is below the cut. On the two
axes it needs no angle. -/
def sqrtSigned (z : Complex R) : Complex R :=
  if z.im == 0 then
    if Scalar.signBit z.re then ⟨0, signedLike z.im (RealFunctions.sqrt (-z.re))⟩
    else ⟨RealFunctions.sqrt z.re, z.im⟩
  else if z.re == 0 then
    let x := RealFunctions.sqrt (Scalar.abs z.im / 2.0)
    ⟨x, signedLike z.im x⟩
  else ofPolar (RealFunctions.sqrt z.abs) (z.argSigned / 2.0)

/-- The square root. An operand with a negligible imaginary part that is not negative has a
real root; elsewhere the root lies in the right half plane, on the side of the axis on which
the operand lies. -/
def sqrt (z : Complex R) : Complex R :=
  if z.isReal && 0 ≤ z.re then ofReal (RealFunctions.sqrt z.re)
  else if z.im == 0 then ⟨0, RealFunctions.sqrt (-z.re)⟩
  else z.sqrtSigned

/-- The principal cube root, in which a negative zero imaginary part is below the cut. On
the two axes it needs no angle. -/
def cbrt (z : Complex R) : Complex R :=
  if z.im == 0 then
    if Scalar.signBit z.re then
      let x := RealFunctions.cbrt (-z.re) / 2.0
      ⟨x, signedLike z.im (RealFunctions.sqrt 3.0 * x)⟩
    else ⟨RealFunctions.cbrt z.re, z.im⟩
  else if z.re == 0 then
    let y := RealFunctions.cbrt (Scalar.abs z.im) / 2.0
    ⟨RealFunctions.sqrt 3.0 * y, signedLike z.im y⟩
  else ofPolar (RealFunctions.cbrt z.abs) (z.argSigned / 3.0)

/-- `z` to the power `w`. The power zero is one for every base, and zero to a positive power
with a negligible imaginary part is zero. -/
def pow (z w : Complex R) : Complex R :=
  if z == 0 && w.isReal && 0 < w.re then 0
  else if w == 0 then 1
  else exp (w * z.logSigned)

/-- `z` to a real power. -/
def powReal (z : Complex R) (x : R) : Complex R :=
  if z == 0 && 0 < x then 0
  else if x == 0 then 1
  else ofPolar (RealFunctions.pow z.abs x) (z.argSigned * x)

/-- The sine. -/
def sin (z : Complex R) : Complex R :=
  ⟨RealFunctions.sin z.re * RealFunctions.cosh z.im,
    RealFunctions.cos z.re * RealFunctions.sinh z.im⟩

/-- The cosine. -/
def cos (z : Complex R) : Complex R :=
  ⟨RealFunctions.cos z.re * RealFunctions.cosh z.im,
    -RealFunctions.sin z.re * RealFunctions.sinh z.im⟩

/-- The tangent, from the double angles. -/
def tan (z : Complex R) : Complex R :=
  let x := z.re + z.re
  let y := z.im + z.im
  (⟨RealFunctions.sin x, RealFunctions.sinh y⟩ : Complex R) /
    (RealFunctions.cos x + RealFunctions.cosh y)

/-- The hyperbolic sine. -/
def sinh (z : Complex R) : Complex R :=
  ⟨RealFunctions.sinh z.re * RealFunctions.cos z.im,
    RealFunctions.cosh z.re * RealFunctions.sin z.im⟩

/-- The hyperbolic cosine. -/
def cosh (z : Complex R) : Complex R :=
  ⟨RealFunctions.cosh z.re * RealFunctions.cos z.im,
    RealFunctions.sinh z.re * RealFunctions.sin z.im⟩

/-- The hyperbolic tangent, from the doubled arguments. -/
def tanh (z : Complex R) : Complex R :=
  let x := z.re + z.re
  let y := z.im + z.im
  (⟨RealFunctions.sinh x, RealFunctions.sin y⟩ : Complex R) /
    (RealFunctions.cosh x + RealFunctions.cos y)

/-- The inverse sine. -/
def asin (z : Complex R) : Complex R :=
  -I * (sqrtSigned (1 - z * z) + I * z).logSigned

/-- The inverse cosine. -/
def acos (z : Complex R) : Complex R :=
  -I * (I * sqrtSigned (1 - z * z) + z).logSigned

/-- The inverse tangent, infinite at its two poles. -/
def atan (z : Complex R) : Complex R :=
  if z == I then ⟨0, Scalar.infinity⟩
  else if z == -I then ⟨0, -Scalar.infinity⟩
  else (logSigned (1 + I * z) - logSigned (1 - I * z)).quotient ((1 + 1) * I)

/-- The inverse hyperbolic sine. -/
def asinh (z : Complex R) : Complex R :=
  (z + sqrtSigned (1 + z * z)).logSigned

/-- The inverse hyperbolic cosine. -/
def acosh (z : Complex R) : Complex R :=
  let two : Complex R := 1 + 1
  two * (sqrtSigned ((z + 1).quotient two) + sqrtSigned ((z - 1).quotient two)).logSigned

/-- The inverse hyperbolic tangent, infinite at its two poles. -/
def atanh (z : Complex R) : Complex R :=
  if z == 1 then ⟨Scalar.infinity, 0⟩
  else if z == -1 then ⟨-Scalar.infinity, 0⟩
  else (logSigned (1 + z) - logSigned (1 - z)).quotient (1 + 1)

end RootFinding.Complex
