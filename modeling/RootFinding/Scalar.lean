/-!
# Real scalars

Every capability of this library is written once, over an abstract real scalar. `Scalar`
holds the ordered arithmetic and `RealFunctions` the elementary functions. The hardware
numbers are instances of both, and so is any exact field, so that a formula which runs in
floating point is the very formula a theorem speaks about.

Neither class states a law: hardware numbers satisfy few of them, and a statement that needs
one names it.
-/

namespace RootFinding

/-- Ordered arithmetic with decimal literals and the special values of a number system.

A system without non-finite values answers `isFinite` with `true`, `isNaN` with `false` and
`signBit` with "less than zero"; its `infinity` and `largest` are then never looked at. -/
class Scalar (R : Type) extends Zero R, One R, Neg R, Add R, Sub R, Mul R, Div R,
    OfScientific R, BEq R, LT R, LE R where
  decidableLT : DecidableLT R
  decidableLE : DecidableLE R
  /-- Absolute value. -/
  abs : R → R
  /-- The distance from one to the next larger number; the tolerance of every inexact test. -/
  epsilon : R
  /-- The value above all others, which a division by zero yields. -/
  infinity : R
  /-- The largest finite value. -/
  largest : R
  /-- True of values that are not a number. -/
  isNaN : R → Bool
  /-- True of values that are neither infinite nor not a number. -/
  isFinite : R → Bool
  /-- True of values written with a minus sign, the negative zero included. -/
  signBit : R → Bool

attribute [reducible, instance] Scalar.decidableLT Scalar.decidableLE

/-- Scalars with the elementary real functions. -/
class RealFunctions (R : Type) extends Scalar R where
  sqrt : R → R
  cbrt : R → R
  exp : R → R
  log : R → R
  sin : R → R
  cos : R → R
  sinh : R → R
  cosh : R → R
  /-- `pow x y` is `x` to the power `y`. -/
  pow : R → R → R
  /-- `hypot x y` is the length of the vector `(x, y)`. -/
  hypot : R → R → R
  /-- `atan2 y x` is the angle of the vector `(x, y)`. -/
  atan2 : R → R → R
  /-- The natural logarithm of ten. -/
  ln10 : R

namespace Scalar

variable {R : Type} [Scalar R]

/-- Closer to zero than machine epsilon: what an inexact test takes for zero. -/
def isNegligible (x : R) : Bool :=
  abs x < epsilon

/-- Equal, or closer to each other than machine epsilon. -/
def nearlyEqual (x y : R) : Bool :=
  x == y || abs (y - x) < epsilon

/-- Infinite of either sign. -/
def isInfinite (x : R) : Bool :=
  !isFinite x && !isNaN x

/-- The order of two scalars, in which incomparable values tie. -/
def order (x y : R) : Ordering :=
  if x < y then .lt else if y < x then .gt else .eq

/-- The larger of two values. A value that is not a number loses to any other. -/
def maximum (x y : R) : R :=
  if isNaN x then y
  else if isNaN y then x
  else if x < y then y
  else x

end Scalar

end RootFinding
