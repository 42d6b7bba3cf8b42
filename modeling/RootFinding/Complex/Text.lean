import RootFinding.Complex.Basic
import RootFinding.Decimal.Layout

/-!
# Text of complex numbers

Three forms: a sum in parentheses for readers, the same without an imaginary part that is
zero, and an exact record of both parts.
-/

namespace RootFinding.Complex

variable {R : Type} [BinaryFloat R]

/-- `(a+bi)`. A negative imaginary part, the negative zero included, brings its own sign. -/
def display (z : Complex R) : String :=
  let sign := if Scalar.signBit z.im then "" else "+"
  "(" ++ BinaryFloat.text .plain z.re ++ sign ++ BinaryFloat.text .plain z.im ++ "i)"

/-- The real part alone where the imaginary part is zero, the sum otherwise. -/
def displayShort (z : Complex R) : String :=
  if z.im == 0 then BinaryFloat.text .plain z.re else z.display

/-- Both parts by name, with text that reads back exactly. -/
def record (z : Complex R) : String :=
  "Complex(Complex \x7b re: " ++ BinaryFloat.text .pointed z.re ++
    ", im: " ++ BinaryFloat.text .pointed z.im ++ " \x7d)"

end RootFinding.Complex
