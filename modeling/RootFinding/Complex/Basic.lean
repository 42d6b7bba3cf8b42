import RootFinding.Scalar

/-!
# Complex numbers

A complex number is a pair of scalars in Cartesian form. Equality is the scalars' own, part
by part, so the two signed zeros are equal and a value that is not a number equals nothing.

Products and quotients are written out as the sequence of scalar operations they are: in
floating point another sequence would round differently. Division multiplies by the
conjugate divided twice by the modulus, so that the square of the divisor's modulus, which
may overflow, is never formed.
-/

namespace RootFinding

/-- A complex number in Cartesian form. -/
structure Complex (R : Type) where
  re : R
  im : R
  deriving Repr

namespace Complex

variable {R : Type}

section Arithmetic

variable [Scalar R]

/-- The real number `x`. -/
def ofReal (x : R) : Complex R := ⟨x, 0⟩

/-- The imaginary unit. -/
def I : Complex R := ⟨0, 1⟩

instance : Zero (Complex R) := ⟨⟨0, 0⟩⟩
instance : One (Complex R) := ⟨⟨1, 0⟩⟩
instance : Inhabited (Complex R) := ⟨0⟩
instance : BEq (Complex R) := ⟨fun z w => z.re == w.re && z.im == w.im⟩
instance : Neg (Complex R) := ⟨fun z => ⟨-z.re, -z.im⟩⟩
instance : Add (Complex R) := ⟨fun z w => ⟨z.re + w.re, z.im + w.im⟩⟩
instance : Sub (Complex R) := ⟨fun z w => ⟨z.re - w.re, z.im - w.im⟩⟩
instance : Mul (Complex R) :=
  ⟨fun z w => ⟨z.re * w.re - z.im * w.im, z.re * w.im + z.im * w.re⟩⟩

/-- Adding a real number leaves the imaginary part alone. -/
instance : HAdd (Complex R) R (Complex R) := ⟨fun z x => ⟨z.re + x, z.im⟩⟩

/-- Subtracting a real number leaves the imaginary part alone. -/
instance : HSub (Complex R) R (Complex R) := ⟨fun z x => ⟨z.re - x, z.im⟩⟩
instance : HMul (Complex R) R (Complex R) := ⟨fun z x => ⟨z.re * x, z.im * x⟩⟩
instance : HDiv (Complex R) R (Complex R) := ⟨fun z x => ⟨z.re / x, z.im / x⟩⟩
instance : HAdd R (Complex R) (Complex R) := ⟨fun x z => ⟨x + z.re, z.im⟩⟩

/-- Subtracting from a real number subtracts the imaginary part from zero, so that a zero
imaginary part stays positive. -/
instance : HSub R (Complex R) (Complex R) := ⟨fun x z => ⟨x - z.re, 0 - z.im⟩⟩
instance : HMul R (Complex R) (Complex R) := ⟨fun x z => ⟨x * z.re, x * z.im⟩⟩

/-- The conjugate. -/
def conj (z : Complex R) : Complex R := ⟨z.re, -z.im⟩

/-- The product with the imaginary unit, free of rounding. -/
def timesI (z : Complex R) : Complex R := ⟨-z.im, z.re⟩

/-- The square of the modulus. -/
def normSq (z : Complex R) : R := z.re * z.re + z.im * z.im

/-- The sum of the absolute values of the parts. -/
def taxicab (z : Complex R) : R := Scalar.abs z.re + Scalar.abs z.im

/-- The imaginary part is negligible. -/
def isReal (z : Complex R) : Bool := Scalar.isNegligible z.im

/-- Both parts are negligible. -/
def isNegligible (z : Complex R) : Bool :=
  Scalar.isNegligible z.re && Scalar.isNegligible z.im

/-- Both parts are finite. -/
def isFinite (z : Complex R) : Bool := Scalar.isFinite z.re && Scalar.isFinite z.im

/-- Some part is not a number. -/
def isNaN (z : Complex R) : Bool := Scalar.isNaN z.re || Scalar.isNaN z.im

/-- Projection to the sphere: every infinite value, and every value that is not a number,
becomes the one point at infinity, which keeps the sign of the imaginary part. -/
def proj (z : Complex R) : Complex R :=
  if z.isFinite then z
  else ⟨Scalar.infinity, if Scalar.signBit z.im then -0 else 0⟩

/-- The textbook quotient: the dividend times the conjugate, over the square of the modulus. -/
def quotient (z w : Complex R) : Complex R :=
  let n := w.normSq
  ⟨(z.re * w.re + z.im * w.im) / n, (z.im * w.re - z.re * w.im) / n⟩

/-- The sum of a list, from zero and from the left. -/
def sum (zs : List (Complex R)) : Complex R := zs.foldl (· + ·) 0

/-- The product of a list, from one and from the left. -/
def product (zs : List (Complex R)) : Complex R := zs.foldl (· * ·) 1

/-- Lexicographic order by real and then imaginary part, in which incomparable parts tie. -/
def order (z w : Complex R) : Ordering :=
  (Scalar.order z.re w.re).then (Scalar.order z.im w.im)

/-- Sorted lexicographically; tied values keep their order. -/
def sort (zs : List (Complex R)) : List (Complex R) :=
  zs.mergeSort fun z w => (order z w).isLE

end Arithmetic

section Modulus

variable [RealFunctions R]

/-- The modulus. -/
def abs (z : Complex R) : R := RealFunctions.hypot z.re z.im

/-- The conjugate divided twice by the modulus. -/
def inverse (z : Complex R) : Complex R :=
  let n := z.abs
  ⟨z.re / n / n, -z.im / n / n⟩

instance : Div (Complex R) := ⟨fun z w => z * w.inverse⟩
instance : HDiv R (Complex R) (Complex R) := ⟨fun x z => ofReal x / z⟩

/-- One over `z`, which for zero is the point at infinity. -/
def reciprocal (z : Complex R) : Complex R :=
  if z == 0 then ofReal Scalar.infinity else z.inverse

/-- Equal, or with moduli closer than `tolerance`. The argument plays no part. -/
def moduliNear (z w : Complex R) (tolerance : R) : Bool :=
  z == w || Scalar.abs (z.abs - w.abs) < tolerance

/-- Close within machine epsilon. -/
def moduliNearlyEqual (z w : Complex R) : Bool := z.moduliNear w Scalar.epsilon

end Modulus

end Complex

end RootFinding
