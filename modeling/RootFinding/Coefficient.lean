import RootFinding.Complex.Elementary

/-!
# Coefficients

Root finding is written over any type `K` with the field operations and over the scalars `R`
in which its moduli are measured. `Coefficient K R` names what it needs beyond the field
operations. Complex numbers over a scalar are an instance; so is any field with chosen
square and cube roots, and there the formulas are exact.
-/

namespace RootFinding

/-- What the formulas need of coefficients besides the field operations. -/
class Coefficient (K : Type) (R : outParam Type) where
  /-- The coefficient with these two Cartesian parts. -/
  ofParts : R → R → K
  /-- The real part. -/
  re : K → R
  /-- The conjugate. -/
  conj : K → K
  /-- The product with a scalar. -/
  mulReal : K → R → K
  /-- The quotient by a scalar. -/
  divReal : K → R → K
  /-- The modulus. -/
  abs : K → R
  /-- A square root. -/
  sqrt : K → K
  /-- A cube root. -/
  cbrt : K → K
  /-- A cube root of one other than one. -/
  omega : K
  /-- Whether a coefficient counts as zero. -/
  isNegligible : K → Bool

instance {R : Type} [RealFunctions R] : Coefficient (Complex R) R where
  ofParts re im := ⟨re, im⟩
  re := Complex.re
  conj := Complex.conj
  mulReal z x := z * x
  divReal z x := z / x
  abs := Complex.abs
  sqrt := Complex.sqrt
  cbrt := Complex.cbrt
  omega := ⟨-0.5, RealFunctions.sqrt 3.0 * 0.5⟩
  isNegligible := Complex.isNegligible

end RootFinding
