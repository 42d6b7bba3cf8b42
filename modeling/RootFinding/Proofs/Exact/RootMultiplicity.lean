import RootFinding.Proofs.Exact.ComplexField
import RootFinding.Proofs.Exact.Quartic
import RootFinding.Proofs.Iteration.Interpolation

/-!
# Exact multiplicities

A bag that holds the roots of a function determines the polynomial of the function, since a field of
characteristic zero has enough places to tell polynomials apart. So the count of each value is its
multiplicity as a root of that polynomial, and zero for a value that is none. With that the formulas
of degree three and four are exact.
-/

namespace RootFinding.ClosedForm

open Bag Coefficient ExactArithmetic Outcome Polynomial

variable {K R : Type} [Field K] [CharZero K]

/-- Lists with the same product of linear factors are the same up to order. -/
theorem perm_of_rootProduct {roots others : List K}
    (same : ∀ x, rootProduct roots x = rootProduct others x) : roots.Perm others := by
  have polynomials : (roots.map fun r => X - C r).prod = (others.map fun r => X - C r).prod := by
    apply Polynomial.funext
    intro x
    rw [eval_linearFactors, eval_linearFactors, same]
  rw [← Multiset.coe_eq_coe, ← roots_linearFactors roots, polynomials, roots_linearFactors]

variable [BEq K] [LawfulBEq K] [Scalar R] [Coefficient K R] [ExactArithmetic K]

/-- The count of a value is its multiplicity as a root. -/
theorem HoldsRoots.count_eq {bag : Bag K} {f : K → K} (holds : HoldsRoots bag f) {lead : K}
    (nonzero : lead ≠ 0) {polynomial : K[X]} (same : ∀ x, polynomial.eval x = lead * f x) (r : K) :
    bag.count r = polynomial.rootMultiplicity r := by
  classical
  have factored : polynomial = C lead * (bag.toList.map fun r => X - C r).prod := by
    apply Polynomial.funext
    intro x
    rw [same, eval_mul, eval_C, eval_linearFactors, holds.product]
  have roots : polynomial.roots = (bag.toList : Multiset K) := by
    rw [factored, roots_C_mul _ nonzero, roots_linearFactors]
  have sameCount : List.count r bag.toList = Multiset.count r (bag.toList : Multiset K) := by
    rw [Multiset.coe_count]
    congr
    exact lawful_beq_subsingleton _ _
  rw [count_eq_countIn, countIn_eq_count r (distinct_iff_apart.mp holds.distinct), ← toList_eq,
    sameCount, ← roots, count_roots]

/-- The bag of the values that a polynomial factors over counts each of them as often as it is a
root. -/
theorem endsIn_multiplicities {lead : K} (nonzero : lead ≠ 0) {rest values : List K}
    (short : values.length ≤ 4)
    (product : ∀ x, lead * rootProduct values x = Poly.horner (lead :: rest) x) :
    EndsIn (Bag.ofList values) fun bag => bag.toList.Perm values ∧
      ∀ r, bag.count r = (Poly.polynomial (lead :: rest)).rootMultiplicity r := by
  obtain ⟨bag, built, same⟩ := solvesTo_ofList short
  obtain ⟨_, again, holds⟩ := endsIn_ofList short (f := rootProduct values) fun _ => rfl
  cases built.symm.trans again
  refine ⟨bag, built, same, ?_⟩
  apply holds.count_eq nonzero
  intro x
  rw [Poly.eval_polynomial, product]

omit [BEq K] [LawfulBEq K] in
/-- Either candidate that is not the smaller one will do, with any of its cube roots. -/
theorem MonicCubic.rootProduct_of_larger (cubic : MonicCubic K)
    (simple : cubic.discriminant ≠ 0) {root C : K} (squared : root * root = cubic.discriminant)
    (larger : abs (cubic.D₁ - root) ≤ abs (cubic.D₁ + root))
    (cubed : C * C * C = (cubic.D₁ + root) / 2) :
    C ≠ 0 ∧ ∀ x, 1 * rootProduct ([C, omega * C, conj omega * C].map cubic.rootOf) x =
      Poly.horner cubic.coeffs x := by
  have nonzero := cubic.candidate_ne_zero simple squared larger
  exact ⟨ne_zero_of_cubed cubed nonzero, cubic.rootProduct_cardano squared cubed nonzero⟩

/-- The cubic formula is exact. Whatever square and cube roots the arithmetic has, the three values
of the bag multiply to the cubic, each of them is counted by its multiplicity, and they are those of
the branch that fits the coincidences among the roots. In the general branch either candidate that
is chosen as the larger has cube roots other than zero, and any of them leads to the roots. -/
theorem cubic_exact {a : K} (nonzero : a ≠ 0) (b c d : K) :
    ∃ bag values, (cubic a b c d).outcome = .ok bag ∧ bag.toList.Perm values ∧
      values.length = 3 ∧
      (∀ x, a * rootProduct values x = a * x ^ 3 + b * x ^ 2 + c * x + d) ∧
      (∀ r, bag.count r = (Poly.polynomial [a, b, c, d]).rootMultiplicity r) ∧
      ∀ monic : MonicCubic K, monic = ⟨overLead a b, overLead a c, overLead a d⟩ →
        monic.Branch (cubic a b c d).events values ∧
        (monic.discriminant ≠ 0 → ∀ root, root * root = monic.discriminant →
          abs (monic.D₁ - root) ≤ abs (monic.D₁ + root) →
          ∀ C, C * C * C = (monic.D₁ + root) / 2 →
            C ≠ 0 ∧ ∀ x, 1 * rootProduct ([C, omega * C, conj omega * C].map monic.rootOf) x =
              Poly.horner monic.coeffs x) := by
  obtain ⟨values, branch, finished, length, product⟩ :=
    MonicCubic.exists_branch ⟨overLead a b, overLead a c, overLead a d⟩
  have cubicProduct (x : K) : a * rootProduct values x = Poly.horner [a, b, c, d] x := by
    rw [horner_cubic nonzero, ← product, one_mul]
  obtain ⟨bag, built, same, multiplicities⟩ :=
    endsIn_multiplicities nonzero (by omega) cubicProduct
  refine ⟨bag, values, finished.trans built, same, length, ?_, multiplicities, ?_⟩
  · intro x
    rw [cubicProduct]
    simp only [Poly.horner, List.foldl_cons, List.foldl_nil]
    ring
  · rintro _ rfl
    exact ⟨branch, fun simple _ squared larger _ cubed =>
      MonicCubic.rootProduct_of_larger _ simple squared larger cubed⟩

/-- Over the complex field the formula finds the roots of `2 (x - 1) (x - 2) (x - 3)`. -/
theorem cubic_exact_three_roots :
    ∃ bag, (cubic (2 : ℂ) (-12) 22 (-12)).outcome = .ok bag ∧ bag.toList.Perm [1, 2, 3] := by
  obtain ⟨bag, values, finished, same, _, product, _⟩ :=
    cubic_exact (K := ℂ) two_ne_zero (-12) 22 (-12)
  refine ⟨bag, finished, same.trans (perm_of_rootProduct ?_)⟩
  intro x
  apply mul_left_cancel₀ (two_ne_zero (α := ℂ))
  rw [product]
  simp only [rootProduct_cons, rootProduct_nil]
  ring

/-- The polynomial `lead x⁴ + a x³ + b x² + c x + d`. -/
noncomputable def quarticPolynomial (lead a b c d : K) : K[X] :=
  C lead * X ^ 4 + C a * X ^ 3 + C b * X ^ 2 + C c * X + C d

/-- A bag holds the four roots of a quartic. -/
structure HoldsQuarticRoots (bag : Bag K) (lead a b c d : K) : Prop where
  total : bag.total = 4
  product : ∀ x, lead * rootProduct bag.toList x =
    lead * x ^ 4 + a * x ^ 3 + b * x ^ 2 + c * x + d
  multiplicity : ∀ r, bag.count r = (quarticPolynomial lead a b c d).rootMultiplicity r

/-- The roots of a monic quartic are those of its multiples. -/
theorem HoldsRoots.holdsQuarticRoots {bag : Bag K} {lead : K} (nonzero : lead ≠ 0) {a b c d : K}
    (holds : HoldsRoots bag fun x => x ^ 4 + overLead lead a * x ^ 3 + overLead lead b * x ^ 2 +
      overLead lead c * x + overLead lead d)
    (total : bag.total = 4) : HoldsQuarticRoots bag lead a b c d := by
  have multiple (x : K) : lead * (x ^ 4 + overLead lead a * x ^ 3 + overLead lead b * x ^ 2 +
      overLead lead c * x + overLead lead d) =
        lead * x ^ 4 + a * x ^ 3 + b * x ^ 2 + c * x + d := by
    simp only [overLead_eq]
    field_simp
  refine ⟨total, ?_, ?_⟩
  · intro x
    rw [holds.product, multiple]
  · apply holds.count_eq nonzero
    intro x
    rw [multiple]
    simp [quarticPolynomial]

/-- The quartic formula is exact. On each of its paths, and in whatever order a table is walked, the
roots have the product that the coefficients say, each with its multiplicity. With a linear term
left after the depression, no root of the resolvent makes the divisor zero, and in whatever order
the roots of the resolvent come, the roots are the same. -/
theorem quartic_exact {lead : K} (nonzero : lead ≠ 0) (a b c d : K) :
    (∀ order : TableOrder K, ∃ bag, (quartic order lead a b c d).outcome = .ok bag ∧
      HoldsQuarticRoots bag lead a b c d) ∧
    ∀ depressed : DepressedQuartic K,
      depressed = .ofMonic (overLead lead a) (overLead lead b) (overLead lead c)
        (overLead lead d) → depressed.q ≠ 0 →
      (∀ y, Poly.horner depressed.resolvent.coeffs y = 0 →
        depressed.divisorSquare y ≠ 0 ∧ sqrt (depressed.divisorSquare y) ≠ 0) ∧
      ∃ resolventRoots, (solveCubic depressed.resolvent.coeffs).outcome = .ok resolventRoots ∧
        ∀ walked : List K, walked.Perm resolventRoots.toList →
          ∃ bag, (depressed.ferrari walked).outcome = .ok bag ∧
            HoldsQuarticRoots bag lead a b c d := by
  constructor
  · intro order
    obtain ⟨bag, finished, holds⟩ := endsIn_monicQuartic order (overLead lead a)
      (overLead lead b) (overLead lead c) (overLead lead d)
    exact ⟨bag, finished, holds.holdsQuarticRoots nonzero (total_quartic finished)⟩
  · rintro depressed isDepressed linearTerm
    constructor
    · intro y isRoot
      have divisorNonzero := depressed.divisorSquare_ne_zero linearTerm isRoot
      exact ⟨divisorNonzero, sqrt_ne_zero divisorNonzero⟩
    · obtain ⟨resolventRoots, found, nonempty, areRoots⟩ := depressed.exists_resolventRoots
      refine ⟨resolventRoots, found, ?_⟩
      intro walked same
      have walkedNonempty : walked ≠ [] := by
        rintro rfl
        exact nonempty (List.nil_perm.mp same)
      obtain ⟨bag, finished, holds⟩ := depressed.endsIn_ferrari linearTerm walkedNonempty
        fun y member => areRoots y (same.mem_iff.mp member)
      have total : bag.total = 4 := by
        rcases depressed.ferrari_outcome walkedNonempty with yields | vanished
        · exact yields.total finished
        · rw [finished] at vanished
          cases vanished
      refine ⟨bag, finished, HoldsRoots.holdsQuarticRoots nonzero ⟨holds.distinct, ?_⟩ total⟩
      intro x
      rw [holds.product, isDepressed, DepressedQuartic.value_ofMonic]

/-- Over the complex field the formula finds the four fifth roots of one beside one itself. -/
theorem quartic_exact_fifthRoots :
    ∃ bag, (quartic .asStored (1 : ℂ) 1 1 1 1).outcome = .ok bag ∧ bag.total = 4 ∧
      ∀ x, rootProduct bag.toList x = x ^ 4 + x ^ 3 + x ^ 2 + x + 1 := by
  obtain ⟨bag, finished, holds⟩ :=
    (quartic_exact (K := ℂ) one_ne_zero 1 1 1 1).1 .asStored
  refine ⟨bag, finished, holds.total, ?_⟩
  intro x
  linear_combination holds.product x

end RootFinding.ClosedForm
