import RootFinding.Coefficient
import RootFinding.Fault

/-!
# Polynomials

A polynomial is a non-empty list of coefficients, highest degree first. Leading coefficients
may be zero, so the degree is a property of the list; `ofList?` rejects a list in which
every coefficient is negligible.
-/

namespace RootFinding

/-- A polynomial in one variable, as its coefficients from the highest degree down. -/
structure Poly (K : Type) where
  coeffs : List K
  nonempty : coeffs ≠ []

namespace Poly

variable {K R : Type}

/-- The number of coefficients less one. -/
def degree (p : Poly K) : Nat := p.coeffs.length - 1

/-- The polynomial with these coefficients, unless there are none or all of them are
negligible. -/
def ofList? [Coefficient K R] (coeffs : List K) : Except Error (Poly K) :=
  match coeffs with
  | [] => .error .noCoefficients
  | c :: cs =>
      if (c :: cs).all Coefficient.isNegligible then .error .zeroPolynomial
      else .ok ⟨c :: cs, List.cons_ne_nil c cs⟩

/-- The polynomial with these real coefficients. -/
def ofReals? [RealFunctions R] (coeffs : List R) : Except Error (Poly (Complex R)) :=
  ofList? (coeffs.map Complex.ofReal)

/-- The value at `x` of the polynomial with these coefficients, by Horner's rule. -/
def horner [Zero K] [Add K] [Mul K] (coeffs : List K) (x : K) : K :=
  coeffs.foldl (fun value c => value * x + c) 0

/-- The value at a point. -/
def eval [Zero K] [Add K] [Mul K] (p : Poly K) (x : K) : K := horner p.coeffs x

/-- The coefficients of a product with `x - r`: each loses `r` times its left neighbour, and
a last one is added. -/
def mulLinear [Zero K] [Sub K] [Mul K] (r : K) : List K → List K
  | [] => []
  | lead :: rest => lead :: (rest ++ [0]).zipWith (fun c left => c - r * left) (lead :: rest)

/-- A linear factor raises the number of coefficients by one. -/
theorem length_mulLinear [Zero K] [Sub K] [Mul K] (r : K) {coeffs : List K}
    (nonempty : coeffs ≠ []) : (mulLinear r coeffs).length = coeffs.length + 1 := by
  cases coeffs with
  | nil => exact absurd rfl nonempty
  | cons lead rest => simp [mulLinear]

/-- Each linear factor raises the number of coefficients by one. -/
theorem length_foldl_mulLinear [Zero K] [Sub K] [Mul K] (roots : List K) {coeffs : List K}
    (nonempty : coeffs ≠ []) :
    (roots.foldl (fun coeffs r => mulLinear r coeffs) coeffs).length =
      coeffs.length + roots.length := by
  induction roots generalizing coeffs with
  | nil => rfl
  | cons r roots inductionHypothesis =>
      have longer := length_mulLinear r nonempty
      rw [List.foldl_cons, inductionHypothesis (List.ne_nil_of_length_pos (by omega)), longer,
        List.length_cons]
      omega

/-- The product of `x - r` over the roots `r`; without roots, the constant one. -/
def ofRoots [Zero K] [One K] [Sub K] [Mul K] (roots : List K) : Poly K where
  coeffs := roots.foldl (fun coeffs r => mulLinear r coeffs) [1]
  nonempty := by
    have length := length_foldl_mulLinear roots (List.cons_ne_nil (1 : K) [])
    exact List.ne_nil_of_length_pos (by rw [length, List.length_singleton]; omega)

/-- There is one coefficient more than roots. -/
theorem length_coeffs_ofRoots [Zero K] [One K] [Sub K] [Mul K] (roots : List K) :
    (ofRoots roots).coeffs.length = roots.length + 1 := by
  have length := length_foldl_mulLinear roots (List.cons_ne_nil (1 : K) [])
  rw [List.length_singleton, Nat.add_comm] at length
  exact length

/-- Every coefficient multiplied by a factor. -/
def scale [Mul K] (p : Poly K) (factor : K) : Poly K where
  coeffs := p.coeffs.map (· * factor)
  nonempty := by simpa using p.nonempty

instance [BEq K] : BEq (Poly K) := ⟨fun p q => p.coeffs == q.coeffs⟩

end Poly

end RootFinding
