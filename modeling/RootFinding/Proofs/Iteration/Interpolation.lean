import RootFinding.Proofs.Horner
import RootFinding.Search.Iteration

/-!
# Corrections and interpolation

A step takes a correction off each estimate: the value of the polynomial there over the product of
the differences to the other estimates. A monic polynomial of the right degree differs from the
product of `x - z` over pairwise distinct estimates `z` by a polynomial that interpolates its values
there, and so it is that product times one plus the corrections, each over the distance to its
estimate.
-/

namespace RootFinding

open Finset Polynomial

variable {K : Type} [Field K]

namespace Poly

/-- The polynomial with these coefficients, from the highest degree down. -/
noncomputable def polynomial (coeffs : List K) : K[X] := horner (coeffs.map C) X

/-- A further constant coefficient multiplies by the variable and adds itself. -/
theorem polynomial_append_singleton (coeffs : List K) (c : K) :
    polynomial (coeffs ++ [c]) = polynomial coeffs * X + C c := by
  simp [polynomial, horner]

/-- Horner's rule evaluates the polynomial. -/
theorem eval_polynomial (coeffs : List K) (x : K) :
    (polynomial coeffs).eval x = horner coeffs x := by
  induction coeffs using List.reverseRecOn with
  | nil => simp [polynomial, horner]
  | append_singleton coeffs c inductionHypothesis =>
      rw [polynomial_append_singleton, eval_add, eval_mul, eval_X, eval_C, inductionHypothesis,
        horner_append_singleton]

/-- A further leading coefficient adds its power. -/
theorem polynomial_cons (lead : K) (rest : List K) :
    polynomial (lead :: rest) = C lead * X ^ rest.length + polynomial rest := by
  induction rest using List.reverseRecOn with
  | nil => simp [polynomial, horner]
  | append_singleton rest c inductionHypothesis =>
      rw [← List.cons_append, polynomial_append_singleton, polynomial_append_singleton,
        inductionHypothesis, List.length_append, List.length_singleton, pow_succ]
      ring

/-- The degree is less than the number of coefficients. -/
theorem degree_polynomial_lt (coeffs : List K) :
    (polynomial coeffs).degree < (coeffs.length : WithBot ℕ) := by
  induction coeffs with
  | nil => simp [polynomial, horner]
  | cons lead rest inductionHypothesis =>
      rw [polynomial_cons, List.length_cons]
      refine (degree_add_le _ _).trans_lt (max_lt ?_ ?_)
      · exact (degree_C_mul_X_pow_le _ _).trans_lt (by exact_mod_cast Nat.lt_succ_self _)
      · exact inductionHypothesis.trans (by exact_mod_cast Nat.lt_succ_self _)

/-- With the leading coefficient one, the polynomial is monic and has its full degree. -/
theorem monic_polynomial (rest : List K) : (polynomial (1 :: rest)).Monic ∧
    (polynomial (1 :: rest)).degree = (rest.length : WithBot ℕ) := by
  have lower : (polynomial rest).degree < ((X : K[X]) ^ rest.length).degree := by
    rw [degree_X_pow]
    exact degree_polynomial_lt rest
  rw [polynomial_cons, C_1, one_mul]
  refine ⟨monic_X_pow_add (degree_polynomial_lt rest), ?_⟩
  rw [degree_add_eq_left_of_degree_lt lower, degree_X_pow]

/-- Dividing the coefficients divides the polynomial. -/
theorem polynomial_map_div (coeffs : List K) (divisor : K) :
    polynomial (coeffs.map (· / divisor)) = C divisor⁻¹ * polynomial coeffs := by
  induction coeffs using List.reverseRecOn with
  | nil => simp [polynomial, horner]
  | append_singleton coeffs c inductionHypothesis =>
      rw [List.map_append, List.map_singleton, polynomial_append_singleton,
        polynomial_append_singleton, inductionHypothesis, div_eq_inv_mul, C_mul]
      ring

/-- Dividing the coefficients divides the value. -/
theorem horner_map_div (coeffs : List K) (divisor x : K) :
    horner (coeffs.map (· / divisor)) x = horner coeffs x / divisor := by
  rw [← eval_polynomial, polynomial_map_div, eval_mul, eval_C, eval_polynomial, inv_mul_eq_div]

end Poly

namespace Iteration

/-- The product of the differences to the other estimates. -/
theorem spread_eq (points : List K) (k : Fin points.length) (x : K) :
    spread points k x = ∏ j ∈ univ.erase k, (x - points.get j) := by
  have others : ((univ.erase k).val.map points.get : Multiset K) = ↑(points.eraseIdx k) := by
    have withIt : points.get k ::ₘ (univ.erase k).val.map points.get =
        points.get k ::ₘ (points.eraseIdx k : Multiset K) := by
      rw [← Multiset.map_cons, ← Finset.insert_val_of_notMem (by simp),
        Finset.insert_erase (mem_univ k), Fin.univ_val_map, List.ofFn_get, Multiset.cons_coe,
        Multiset.coe_eq_coe]
      exact (List.getElem_cons_eraseIdx_perm k.isLt).symm
    exact (Multiset.cons_inj_right _).mp withIt
  have product : spread points k x = ((points.eraseIdx k).map fun other => x - other).prod := by
    rw [spread, List.prod_eq_foldl, List.foldl_map]
  rw [product, Finset.prod_eq_multiset_prod, ← Multiset.prod_coe, ← Multiset.map_coe, ← others,
    Multiset.map_map]
  rfl

/-- What a step takes off the estimate at an index. -/
def correction (monic points : List K) (k : Fin points.length) : K :=
  Poly.horner monic (points.get k) / spread points k (points.get k)

/-- A step takes the corrections off. -/
theorem get_step (monic points : List K) (k : Fin points.length) :
    (step monic points).get ⟨k, by simp⟩ = points.get k - correction monic points k := by
  simp [step, correction]

variable {rest points : List K}

/-- The difference to the product over the estimates interpolates the values there. -/
theorem polynomial_sub_nodal (length : points.length = rest.length) (distinct : points.Nodup) :
    Poly.polynomial (1 :: rest) - Lagrange.nodal univ points.get =
      Lagrange.interpolate univ points.get fun k => Poly.horner (1 :: rest) (points.get k) := by
  obtain ⟨monic, degree⟩ := Poly.monic_polynomial rest
  have card : (univ : Finset (Fin points.length)).card = rest.length := by simp [length]
  apply Lagrange.eq_interpolate_of_eval_eq
  · exact (List.nodup_iff_injective_get.mp distinct).injOn
  · have sameDegree : (Poly.polynomial (1 :: rest)).degree =
        (Lagrange.nodal univ points.get).degree := by
      rw [degree, Lagrange.degree_nodal, card]
    have smaller := degree_sub_lt_left sameDegree monic.ne_zero
      (by rw [monic.leadingCoeff, Lagrange.nodal_monic.leadingCoeff])
    rwa [degree, ← card] at smaller
  · intro k _
    rw [eval_sub, Poly.eval_polynomial, Lagrange.eval_nodal_at_node (mem_univ k), sub_zero]

/-- The value of a monic polynomial off the estimates, in terms of the corrections. -/
theorem horner_eq_nodal_mul (length : points.length = rest.length) (distinct : points.Nodup) {x : K}
    (apart : ∀ k, x ≠ points.get k) : Poly.horner (1 :: rest) x =
      (∏ k, (x - points.get k)) *
        (1 + ∑ k, correction (1 :: rest) points k / (x - points.get k)) := by
  have interpolated := congrArg (eval x) (polynomial_sub_nodal length distinct)
  rw [eval_sub, Poly.eval_polynomial,
    Lagrange.eval_interpolate_not_at_node _ (fun k _ => apart k),
    Lagrange.eval_nodal] at interpolated
  rw [sub_eq_iff_eq_add'.mp interpolated, mul_add, mul_one]
  congr 2
  apply Finset.sum_congr rfl
  intro k _
  rw [correction, spread_eq, Lagrange.nodalWeight, Finset.prod_inv_distrib]
  ring

end Iteration

end RootFinding
