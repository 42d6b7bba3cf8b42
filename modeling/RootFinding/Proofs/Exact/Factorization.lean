import RootFinding.Proofs.Bag.Insertion
import RootFinding.Proofs.ClosedForm.Values
import RootFinding.Proofs.Exact.Arithmetic

/-!
# Products of linear factors

A list of values is a list of roots, with multiplicities, exactly if the product of `x - r` over it
is the polynomial up to its leading coefficient. The product does not depend on the order of the
list, so it can be read off a bag however the bag is walked, and each way of building a bag has its
counterpart for products: a zero is a factor `x`, and a pair of square roots for every element is
the product at the square.
-/

namespace RootFinding

open Bag Coefficient Outcome Reduction

variable {K R : Type} [Field K]

/-- The product of `x - r` over the values `r` of a list. -/
def rootProduct (roots : List K) (x : K) : K := (roots.map fun r => x - r).prod

/-- An empty product is one. -/
@[simp] theorem rootProduct_nil (x : K) : rootProduct [] x = 1 := rfl

/-- A further root is a further factor. -/
@[simp] theorem rootProduct_cons (r : K) (roots : List K) (x : K) :
    rootProduct (r :: roots) x = (x - r) * rootProduct roots x := by
  simp [rootProduct]

/-- The product over two lists is that of the products. -/
@[simp] theorem rootProduct_append (roots others : List K) (x : K) :
    rootProduct (roots ++ others) x = rootProduct roots x * rootProduct others x := by
  simp [rootProduct]

/-- The order of the roots does not matter. -/
theorem rootProduct_perm {roots others : List K} (same : roots.Perm others) (x : K) :
    rootProduct roots x = rootProduct others x :=
  (same.map fun r => x - r).prod_eq

/-- A repeated root has a power. -/
@[simp] theorem rootProduct_replicate (n : Nat) (r x : K) :
    rootProduct (List.replicate n r) x = (x - r) ^ n := by
  simp [rootProduct]

/-- A value of a list is a root of the product over it. -/
theorem rootProduct_eq_zero {roots : List K} {r : K} (member : r ∈ roots) :
    rootProduct roots r = 0 := by
  refine List.prod_eq_zero (List.mem_map.mpr ⟨r, member, sub_self r⟩)

/-- Shifted roots are the roots at a shifted place. -/
theorem rootProduct_map_sub (roots : List K) (shift x : K) :
    rootProduct (roots.map fun r => r - shift) x = rootProduct roots (x + shift) := by
  induction roots with
  | nil => rfl
  | cons r roots inductionHypothesis =>
      rw [List.map_cons, rootProduct_cons, rootProduct_cons, inductionHypothesis]
      ring

/-- Where each value is replaced by roots of a factor, the factors multiply to the product at
another place. -/
theorem rootProduct_flatMap {f : K → List K} {place : K → K}
    (factor : ∀ r x, rootProduct (f r) x = place x - r) (roots : List K) (x : K) :
    rootProduct (roots.flatMap f) x = rootProduct roots (place x) := by
  induction roots with
  | nil => rfl
  | cons r roots inductionHypothesis =>
      rw [List.flatMap_cons, rootProduct_append, rootProduct_cons, factor, inductionHypothesis]

section Polynomials

open Polynomial

/-- The value of a product of linear polynomials. -/
theorem eval_linearFactors (roots : List K) (x : K) :
    ((roots.map fun r => X - C r).prod).eval x = rootProduct roots x := by
  induction roots with
  | nil => simp
  | cons r roots inductionHypothesis => simp [inductionHypothesis]

/-- The roots of a product of linear polynomials. -/
theorem roots_linearFactors (roots : List K) :
    ((roots.map fun r => X - C r).prod).roots = (roots : Multiset K) := by
  rw [← Multiset.prod_coe, ← Multiset.map_coe, roots_multiset_prod_X_sub_C]

end Polynomials

/-- A computation ends in the bag of the roots of `lead` times a monic polynomial. -/
def Solves (computation : Reported K (Bag K)) (lead : K) (coeffs : List K) : Prop :=
  ClosedForm.EndsIn computation fun bag =>
    ∀ x, lead * rootProduct bag.toList x = Poly.horner coeffs x

/-- A polynomial is solved by values that multiply to it. -/
theorem Solves.of_values {computation : Reported K (Bag K)} {values : List K}
    (solves : ClosedForm.SolvesTo computation values) {lead : K} {coeffs : List K}
    (product : ∀ x, lead * rootProduct values x = Poly.horner coeffs x) :
    Solves computation lead coeffs := by
  obtain ⟨bag, finished, same⟩ := solves
  refine ⟨bag, finished, ?_⟩
  intro x
  rw [rootProduct_perm same, product]

variable [BEq K] [LawfulBEq K]

/-- A coefficient is divided by the leading one, which leaves it alone if that is one. -/
theorem ClosedForm.overLead_eq (lead c : K) : overLead lead c = c / lead := by
  unfold overLead
  split
  · next isOne => rw [eq_of_beq isOne, div_one]
  · rfl

/-- The roots at the origin are the zeros at the back of the coefficients. -/
theorem rootProduct_insertMany_zero {bag result : Bag K} {n : Nat}
    (inserted : bag.insertMany 0 n = .ok result) (x : K) :
    rootProduct result.toList x = x ^ n * rootProduct bag.toList x := by
  rw [rootProduct_perm (toList_insertMany inserted), rootProduct_append, rootProduct_replicate,
    sub_zero]

variable [CharZero K] [Scalar R] [Coefficient K R] [ExactArithmetic K]

instance : StandardConstants K where
  zero_beq_zero := beq_self_eq_true 0
  isNegligible_one := ExactArithmetic.isNegligible_eq_false_iff.mpr one_ne_zero

/-- A monic list is its core and zeros behind it, and the core is monic. -/
theorem exists_monic_split (rest : List K) :
    ∃ others, (ofCoeffs (1 :: rest)).core = 1 :: others ∧
      1 :: rest = 1 :: others ++ List.replicate (ofCoeffs (1 :: rest)).zeros 0 := by
  have substantial := ClosedForm.substantial_one_cons rest
  obtain ⟨front, back, parts, frontNegligible, backNegligible, zeros⟩ := exists_split substantial
  have backZero : back = List.replicate (ofCoeffs (1 :: rest)).zeros 0 := by
    rw [← zeros]
    exact List.eq_replicate_of_mem fun c member =>
      (ExactArithmetic.isNegligible_iff c).mp (backNegligible c member)
  have noFront : front = [] := by
    rcases front with _ | ⟨first, front⟩
    · rfl
    · have isOne : (1 : K) = first := by simpa using congrArg List.head? parts
      have isZero := (ExactArithmetic.isNegligible_iff first).mp
        (frontNegligible first List.mem_cons_self)
      exact absurd (isOne.trans isZero) one_ne_zero
  obtain ⟨lead, others, shape, _⟩ := (tight_core substantial).first
  rw [noFront, List.nil_append, shape, List.cons_append] at parts
  obtain ⟨isOne, sameRest⟩ := List.cons.inj parts
  refine ⟨others, by rw [shape, isOne], ?_⟩
  calc 1 :: rest
      = 1 :: others ++ back := congrArg (1 :: ·) sameRest
    _ = 1 :: others ++ List.replicate (ofCoeffs (1 :: rest)).zeros 0 :=
        congrArg (1 :: others ++ ·) backZero

end RootFinding
