import RootFinding.Proofs.Exact.RootMultiplicity

/-!
# Exact arithmetic with another test for zero

The formulas branch on a test of whether a coefficient counts as zero. Exact arithmetic counts only
zero itself; here the operations and roots stay exact and the test is any other. The quantities of a
cubic and the formula by cube roots do not depend on the test, which only decides for which cubics
the formula is used: with three different roots, it gives them wherever it is.
-/

namespace RootFinding

open Bag ClosedForm Coefficient Reduction

/-- The elements of a field, with this test for whether one counts as zero. -/
def Lenient (K : Type) (_countsAsZero : K → Bool) : Type := K

namespace Lenient

variable {K R : Type} {countsAsZero : K → Bool}

instance [Field K] : Field (Lenient K countsAsZero) := inferInstanceAs (Field K)

instance [Field K] [CharZero K] : CharZero (Lenient K countsAsZero) := inferInstanceAs (CharZero K)

instance [BEq K] : BEq (Lenient K countsAsZero) := inferInstanceAs (BEq K)

instance [BEq K] [LawfulBEq K] : LawfulBEq (Lenient K countsAsZero) :=
  inferInstanceAs (LawfulBEq K)

instance [Coefficient K R] : Coefficient (Lenient K countsAsZero) R where
  ofParts := ofParts (K := K)
  re := re (K := K)
  conj := conj (K := K)
  mulReal := mulReal (K := K)
  divReal := divReal (K := K)
  abs := abs (K := K)
  sqrt := sqrt (K := K)
  cbrt := cbrt (K := K)
  omega := omega (K := K)
  isNegligible := countsAsZero

variable [Field K] {x₁ x₂ x₃ : Lenient K countsAsZero}

/-- Dividing out the leading coefficient leaves a monic cubic with the same roots. -/
theorem horner_overLead [BEq K] [LawfulBEq K] {a b c d : Lenient K countsAsZero}
    (nonzero : a ≠ 0)
    (factors : ∀ x, a * ((x - x₁) * (x - x₂) * (x - x₃)) = a * x ^ 3 + b * x ^ 2 + c * x + d)
    (x : Lenient K countsAsZero) :
    1 * rootProduct [x₁, x₂, x₃] x =
      Poly.horner (MonicCubic.mk (overLead a b) (overLead a c) (overLead a d)).coeffs x := by
  apply mul_left_cancel₀ nonzero
  rw [← horner_cubic nonzero]
  simp only [rootProduct_cons, rootProduct_nil, Poly.horner, List.foldl_cons, List.foldl_nil]
  linear_combination factors x

variable [CharZero K] [Scalar R] [Coefficient K R] [ExactArithmetic K]
  {cubic : MonicCubic (Lenient K countsAsZero)}

/-- The discriminant is the square of the differences of the roots, times `-27`. -/
theorem discriminant_eq_differences
    (product : ∀ x, 1 * rootProduct [x₁, x₂, x₃] x = Poly.horner cubic.coeffs x) :
    cubic.discriminant = -(27 * ((x₁ - x₂) * (x₁ - x₃) * (x₂ - x₃)) ^ 2) :=
  MonicCubic.discriminant_eq_differences (K := K) cubic product

/-- Three different roots are the ones that the formula by cube roots gives. -/
theorem cardanoRoots_perm
    (product : ∀ x, 1 * rootProduct [x₁, x₂, x₃] x = Poly.horner cubic.coeffs x)
    (distinct : [x₁, x₂, x₃].Nodup) : cubic.cardanoRoots.Perm [x₁, x₂, x₃] := by
  have simple : cubic.discriminant ≠ 0 :=
    (MonicCubic.discriminant_ne_zero_iff (K := K) cubic product).mpr distinct
  have byFormula (x : Lenient K countsAsZero) :
      1 * rootProduct cubic.cardanoRoots x = Poly.horner cubic.coeffs x := by
    have inField := MonicCubic.rootProduct_cardanoRoots (K := K) cubic
    exact inField simple x
  apply perm_of_rootProduct
  intro x
  rw [← one_mul (rootProduct _ x), byFormula, ← product, one_mul]

variable [BEq K] [LawfulBEq K]

/-- The values that a monic cubic with three different roots comes to are all different exactly if
its discriminant does not count as zero, and then they are the roots. -/
theorem exists_values
    (product : ∀ x, 1 * rootProduct [x₁, x₂, x₃] x = Poly.horner cubic.coeffs x)
    (distinct : [x₁, x₂, x₃].Nodup) :
    ∃ values, SolvesTo cubic.roots values ∧
      (values.Nodup ↔ isNegligible cubic.discriminant = false) ∧
      (values.Nodup → values.Perm [x₁, x₂, x₃]) := by
  cases multiple : isNegligible cubic.discriminant with
  | true =>
      obtain ⟨u, v, solves⟩ := cubic.exists_solvesTo_of_multiple multiple
      have repeated : ¬[u, u, v].Nodup := by simp
      exact ⟨_, solves, by simp, fun apart => absurd apart repeated⟩
  | false =>
      have same := cardanoRoots_perm product distinct
      exact ⟨_, cubic.solvesTo_of_simple multiple, by simp [same.nodup_iff, distinct],
        fun _ => same⟩

end Lenient

end RootFinding
