import RootFinding.Proofs.Iteration.Settled

/-!
# The sum of the estimates

The corrections of a step are the terms of a divided difference. Over distinct estimates they add up
to the coefficient below the leading one of what the polynomial differs by from the product over the
estimates, and that is what the sum of the estimates exceeds the sum of the roots by. So one step
brings the sum of the estimates to that of the roots, wherever it starts, and every step after it
keeps it there.
-/

namespace RootFinding

open Coefficient Finset Polynomial

variable {K : Type} [Field K]

/-- The coefficient below the leading one. -/
theorem Poly.coeff_polynomial_second (lead next : K) (rest : List K) :
    (polynomial (lead :: next :: rest)).coeff rest.length = next := by
  have lower : (polynomial rest).coeff rest.length = 0 :=
    coeff_eq_zero_of_degree_lt (degree_polynomial_lt rest)
  rw [polynomial_cons, polynomial_cons, coeff_add, coeff_add, lower, List.length_cons]
  simp

namespace Iteration

section Step

variable {next : K} {rest points : List K}
variable (length : points.length = (next :: rest).length) (distinct : points.Nodup)
include length distinct

/-- The corrections of a step add up to what the sum of the estimates exceeds that of the roots
by. -/
theorem sum_correction :
    ∑ k, correction (1 :: next :: rest) points k = next + points.sum := by
  have card : (univ : Finset (Fin points.length)).card = rest.length + 1 := by
    rw [Finset.card_fin, length, List.length_cons]
  have injective : Set.InjOn points.get (univ : Finset (Fin points.length)) :=
    (List.nodup_iff_injective_get.mp distinct).injOn
  set difference :=
    Poly.polynomial (1 :: next :: rest) - Lagrange.nodal univ points.get with isDifference
  have degree : difference.degree < (univ : Finset (Fin points.length)).card := by
    rw [isDifference, polynomial_sub_nodal length distinct]
    exact Lagrange.degree_interpolate_lt _ injective
  have values (k : Fin points.length) :
      difference.eval (points.get k) = Poly.horner (1 :: next :: rest) (points.get k) := by
    rw [isDifference, eval_sub, Poly.eval_polynomial, Lagrange.eval_nodal_at_node (mem_univ k),
      sub_zero]
  -- The top coefficient of the interpolating polynomial, as a coefficient of the difference and as
  -- the sum of its values over the products of the distances.
  have coefficient : difference.coeff rest.length = next + points.sum := by
    have product := prod_X_sub_C_coeff_card_pred univ points.get (by omega)
    rw [card, Nat.add_sub_cancel, ← Lagrange.nodal_eq] at product
    rw [isDifference, coeff_sub, Poly.coeff_polynomial_second, product, sub_neg_eq_add]
    exact congrArg (next + ·) (Fin.sum_univ_getElem points)
  have divided := Lagrange.coeff_eq_sum injective degree
  rw [card, Nat.add_sub_cancel, coefficient] at divided
  rw [divided]
  apply Finset.sum_congr rfl
  intro k _
  rw [correction, spread_eq, values]

/-- After a step the estimates have the sum that the roots have. -/
theorem sum_step : (step (1 :: next :: rest) points).sum = -next := by
  have moved : step (1 :: next :: rest) points =
      List.ofFn fun k => points.get k - correction (1 :: next :: rest) points k := by
    apply List.ext_get (by rw [length_step, List.length_ofFn])
    intro k inStep inPoints
    rw [List.length_ofFn] at inPoints
    rw [get_step _ _ ⟨k, inPoints⟩, List.get_ofFn]
    rfl
  calc (step (1 :: next :: rest) points).sum
      = ∑ k, points.get k - ∑ k, correction (1 :: next :: rest) points k := by
        rw [moved, List.sum_ofFn, Finset.sum_sub_distrib]
    _ = points.sum - (next + points.sum) := by
        rw [sum_correction length distinct]
        exact congrArg (· - _) (Fin.sum_univ_getElem points)
    _ = -next := by ring

end Step

section Run

variable {R : Type} [Scalar R] [Coefficient K R]

/-- A run of some steps ends with what the last of them leads to. -/
theorem exists_last_iterate (monic : List K) (tolerance : R) {cap : Nat} (positive : 0 < cap)
    (start : List K) :
    ∃ before settled, before < cap ∧ (run monic tolerance cap 0 start).outcome =
      .ok ⟨step monic ((step monic)^[before] start), before + 1, settled⟩ := by
  obtain ⟨last, settled, stops, isRun⟩ := exists_stopsAt_run monic tolerance cap 0 start
  obtain ⟨before, rfl⟩ := Nat.exists_eq_add_of_le' (stops.last_pos positive)
  refine ⟨before, settled, stops.last_le, ?_⟩
  rw [isRun, stopped, Function.iterate_succ_apply', Nat.zero_add]

variable [BEq K] [LawfulBEq K] {lead : K}

/-- After a step of an iteration the estimates have the sum that the roots have, whatever the
leading coefficient is. -/
theorem sum_step_normalized (nonzero : lead ≠ 0) {next : K} {rest points : List K}
    (length : points.length = (next :: rest).length) (distinct : points.Nodup) :
    (step (normalized lead (next :: rest)) points).sum = -next / lead := by
  rw [normalized_eq nonzero, List.map_cons, neg_div]
  exact sum_step (by simpa using length) distinct

/-- A run of some steps ends with estimates that have the sum of the roots, settled or not, if no
step divides by zero. -/
theorem exists_sum_run (nonzero : lead ≠ 0) (next : K) (rest : List K) (tolerance : R) {cap : Nat}
    (positive : 0 < cap) {start : List K} (length : start.length = (next :: rest).length) :
    ∃ found : Outcome K,
      (run (normalized lead (next :: rest)) tolerance cap 0 start).outcome = .ok found ∧
      0 < found.steps ∧ found.steps ≤ cap ∧
      ((∀ i < found.steps, ((step (normalized lead (next :: rest)))^[i] start).Nodup) →
        found.points.sum = -next / lead) := by
  obtain ⟨before, settled, bounded, finished⟩ :=
    exists_last_iterate (normalized lead (next :: rest)) tolerance positive start
  refine ⟨_, finished, Nat.succ_pos before, bounded, fun distinct => ?_⟩
  exact sum_step_normalized nonzero ((length_iterate_step _ _ _).trans length)
    (distinct before (Nat.lt_succ_self before))

/-- Every step brings the sum of the estimates to that of the roots. For a polynomial with a leading
coefficient other than zero, as many pairwise distinct estimates as its degree have the sum
`-next / lead` after one step, where `next` is the coefficient below the leading one. So an
iteration of one or more steps, none of which starts from two equal estimates, ends with estimates
of that sum, settled or not. -/
theorem estimates_sum_eq (nonzero : lead ≠ 0) (next : K) (rest : List K) :
    (∀ points : List K, points.length = (next :: rest).length → points.Nodup →
      (step (normalized lead (next :: rest)) points).sum = -next / lead) ∧
    ∀ (tolerance : R) (cap : Nat), 0 < cap → ∃ found : Outcome K,
      (iterate lead (next :: rest) tolerance cap).outcome = .ok found ∧
      0 < found.steps ∧ found.steps ≤ cap ∧
      ((∀ i < found.steps, (iterates lead (next :: rest) i).Nodup) →
        found.points.sum = -next / lead) := by
  refine ⟨fun points => sum_step_normalized nonzero, fun tolerance cap positive => ?_⟩
  rw [iterate_eq_run]
  exact exists_sum_run nonzero next rest tolerance positive (length_powers _ _ _)

end Run

/-- One step from the seeds brings the sum to that of the roots of `2 (x - 1) (x - 2)`. -/
theorem estimates_sum_eq_quadratic : ∃ found : Outcome ℂ,
    (iterate (2 : ℂ) [-6, 4] (0 : ℝ) 1).outcome = .ok found ∧ found.points.sum = 3 := by
  obtain ⟨_, sums⟩ := estimates_sum_eq (R := ℝ) (two_ne_zero : (2 : ℂ) ≠ 0) (-6) [4]
  obtain ⟨found, finished, _, bounded, sum⟩ := sums 0 1 one_pos
  refine ⟨found, finished, ?_⟩
  rw [sum]
  · norm_num
  · intro i before
    obtain rfl : i = 0 := by omega
    simpa [iterates, seeds, powers] using one_ne_seed

end Iteration
end RootFinding
