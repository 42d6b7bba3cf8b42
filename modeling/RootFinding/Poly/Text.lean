import RootFinding.Poly.Basic
import RootFinding.Complex.Text

/-!
# Text of polynomials

Terms from the highest degree down, joined by plus signs. Coefficients that are exactly zero
are left out; real ones are written without an imaginary part.
-/

namespace RootFinding.Poly

/-- One term: the coefficient and the power of `x`, which is left out for the constant term. -/
def term {R : Type} [BinaryFloat R] (coefficient : Complex R) : Nat → String
  | 0 => coefficient.displayShort
  | 1 => coefficient.displayShort ++ "x"
  | degree + 2 => coefficient.displayShort ++ "x^" ++ toString (degree + 2)

/-- The terms of a list of coefficients. -/
def terms {R : Type} [BinaryFloat R] : List (Complex R) → List String
  | [] => []
  | c :: rest => if c == 0 then terms rest else term c rest.length :: terms rest

/-- The text of a polynomial. -/
def text {R : Type} [BinaryFloat R] (p : Poly (Complex R)) : String :=
  " + ".intercalate (terms p.coeffs)

end RootFinding.Poly
