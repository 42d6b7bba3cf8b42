import RootFinding.Proofs.Exact.Factorization
import RootFinding.Proofs.Iteration.Settled

/-!
# Fixed points of a step

With distinct estimates no divisor of a step is zero, so the step leaves an estimate where it is
exactly if that is a root. A monic polynomial is determined by as many distinct roots as its degree:
the fixed points of a step are the factorizations into distinct linear factors. A run that settles
within a tolerance of zero has come to one of them.
-/

namespace RootFinding

open Coefficient Finset Polynomial

variable {K : Type} [Field K]

namespace Iteration

variable {monic rest points : List K}

/-- With distinct estimates no divisor of a step is zero. -/
theorem spread_ne_zero (distinct : points.Nodup) (k : Fin points.length) :
    spread points k (points.get k) ≠ 0 := by
  rw [spread_eq, Finset.prod_ne_zero_iff]
  intro j member same
  have sameIndex := List.nodup_iff_injective_get.mp distinct (sub_eq_zero.mp same)
  exact Finset.ne_of_mem_erase member sameIndex.symm

/-- A step moves no estimate exactly if there is nothing to correct. -/
theorem step_eq_self_iff_correction :
    step monic points = points ↔ ∀ k, correction monic points k = 0 := by
  constructor
  · intro fixed k
    have moved := get_step monic points k
    rw [List.get_of_eq fixed] at moved
    exact sub_eq_self.mp moved.symm
  · intro nothing
    apply List.ext_get (length_step monic points)
    intro k inStep inPoints
    have moved := get_step monic points ⟨k, inPoints⟩
    rwa [nothing, sub_zero] at moved

/-- A step moves no estimate exactly if all of them are roots. -/
theorem step_eq_self_iff_roots (distinct : points.Nodup) :
    step monic points = points ↔ ∀ z ∈ points, Poly.horner monic z = 0 := by
  rw [step_eq_self_iff_correction, List.forall_mem_iff_get]
  apply forall_congr'
  intro k
  rw [correction, div_eq_zero_iff, or_iff_left (spread_ne_zero distinct k)]

/-- A monic polynomial is the product over as many distinct roots as its degree. -/
theorem polynomial_eq_linearFactors (length : points.length = rest.length)
    (distinct : points.Nodup) (areRoots : ∀ z ∈ points, Poly.horner (1 :: rest) z = 0) :
    Poly.polynomial (1 :: rest) = (points.map fun z => X - C z).prod := by
  have values : (fun k => Poly.horner (1 :: rest) (points.get k)) = 0 := by
    funext k
    exact areRoots _ (List.get_mem points k)
  have nodal : Lagrange.nodal univ points.get = (points.map fun z => X - C z).prod := by
    rw [Lagrange.nodal, ← Fin.prod_univ_fun_getElem]
    rfl
  have difference := polynomial_sub_nodal length distinct
  rw [values, map_zero, nodal, sub_eq_zero] at difference
  exact difference

section Normalized

variable {R : Type} [Scalar R] [Coefficient K R]

/-- Estimates that stay within a tolerance of zero do not move. -/
theorem eq_of_staysWithin_zero (definite : ∀ z : K, abs z ≤ (0 : R) → z = 0)
    {before after : List K} (length : after.length = before.length)
    (stays : StaysWithin (0 : R) before after) : after = before := by
  apply List.ext_getElem length
  intro k inAfter inBefore
  exact (sub_eq_zero.mp (definite _ (stays k inBefore inAfter))).symm

variable [BEq K] [LawfulBEq K] {lead : K}

/-- Dividing out the leading coefficient divides the polynomial. -/
theorem polynomial_eq_C_mul_normalized (nonzero : lead ≠ 0) (rest : List K) :
    Poly.polynomial (lead :: rest) = C lead * Poly.polynomial (normalized lead rest) := by
  have divided := Poly.polynomial_map_div (lead :: rest) lead
  rw [List.map_cons, div_self nonzero, ← normalized_eq nonzero] at divided
  rw [divided, ← mul_assoc, ← C_mul, mul_inv_cancel₀ nonzero, C_1, one_mul]

/-- So it divides the values. -/
theorem horner_eq_mul_normalized (nonzero : lead ≠ 0) (rest : List K) (x : K) :
    Poly.horner (lead :: rest) x = lead * Poly.horner (normalized lead rest) x := by
  rw [← Poly.eval_polynomial, ← Poly.eval_polynomial, polynomial_eq_C_mul_normalized nonzero,
    eval_mul, eval_C]

/-- The polynomial whose normalized form a step does not move. -/
theorem polynomial_eq_of_fixed (nonzero : lead ≠ 0) (length : points.length = rest.length)
    (distinct : points.Nodup) (fixed : step (normalized lead rest) points = points) :
    Poly.polynomial (lead :: rest) = C lead * (points.map fun z => X - C z).prod := by
  have areRoots := (step_eq_self_iff_roots distinct).mp fixed
  rw [normalized_eq nonzero] at areRoots
  rw [polynomial_eq_C_mul_normalized nonzero, normalized_eq nonzero,
    polynomial_eq_linearFactors (by rw [length, List.length_map]) distinct areRoots]

/-- A step moves none of as many distinct estimates as the degree exactly if the polynomial is the
product of their linear factors. -/
theorem step_eq_self_iff_factors (nonzero : lead ≠ 0) (length : points.length = rest.length)
    (distinct : points.Nodup) :
    step (normalized lead rest) points = points ↔
      ∀ x, Poly.horner (lead :: rest) x = lead * rootProduct points x := by
  constructor
  · intro fixed x
    rw [← Poly.eval_polynomial, polynomial_eq_of_fixed nonzero length distinct fixed, eval_mul,
      eval_C, eval_linearFactors]
  · intro factors
    rw [step_eq_self_iff_roots distinct]
    intro z member
    have value := factors z
    rw [horner_eq_mul_normalized nonzero, rootProduct_eq_zero member, mul_zero] at value
    exact (mul_eq_zero.mp value).resolve_left nonzero

/-- The fixed points of a step are the factorizations. For a polynomial with a leading coefficient
other than zero and as many pairwise distinct estimates as its degree, a step moves none of them
exactly if the polynomial is the leading coefficient times the product of `x - z` over them. So if a
run, from whatever estimates, has settled within a tolerance of zero, and the estimates that its
last step started from are distinct, so that it did not divide by zero, then what it ends with are
all the roots with their multiplicities. An iteration is such a run from the seeds. -/
theorem fixed_iff_factors (definite : ∀ z : K, abs z ≤ (0 : R) → z = 0) (nonzero : lead ≠ 0)
    (rest : List K) :
    (∀ points : List K, points.length = rest.length → points.Nodup →
      (step (normalized lead rest) points = points ↔
        ∀ x, Poly.horner (lead :: rest) x = lead * rootProduct points x)) ∧
    ∀ (start : List K) (cap : Nat) (found : Outcome K), start.length = rest.length →
      (run (normalized lead rest) (0 : R) cap 0 start).outcome = .ok found →
      found.settled = true →
      ((step (normalized lead rest))^[found.steps - 1] start).Nodup →
      (∀ x, Poly.horner (lead :: rest) x = lead * rootProduct found.points x) ∧
        (Poly.polynomial (lead :: rest)).roots = found.points := by
  refine ⟨fun points => step_eq_self_iff_factors nonzero, ?_⟩
  intro start cap found length finished settled distinct
  obtain ⟨before, steps, foundPoints, isWithin⟩ := exists_last_step finished settled
  rw [steps, Nat.zero_add, Nat.add_sub_cancel] at distinct
  have lengthBefore := (length_iterate_step (normalized lead rest) start before).trans length
  have still : found.points = (step (normalized lead rest))^[before] start :=
    eq_of_staysWithin_zero definite (by rw [foundPoints, length_step]) (within_iff.mp isWithin)
  rw [← still] at foundPoints distinct lengthBefore
  have fixed := foundPoints.symm
  refine ⟨(step_eq_self_iff_factors nonzero lengthBefore distinct).mp fixed, ?_⟩
  rw [polynomial_eq_of_fixed nonzero lengthBefore distinct fixed, roots_C_mul _ nonzero,
    roots_linearFactors]

end Normalized

/-- A run from the roots of `2 (x - 1) (x - 2)` stays there, and these are all roots. -/
theorem fixed_iff_factors_quadratic : ∃ found : Outcome ℂ,
    (run (normalized (2 : ℂ) [-6, 4]) (0 : ℝ) 1 0 [1, 2]).outcome = .ok found ∧
      found.settled = true ∧ (Poly.polynomial ((2 : ℂ) :: [-6, 4])).roots = found.points := by
  have definite : ∀ z : ℂ, abs z ≤ (0 : ℝ) → z = 0 := fun z => norm_le_zero_iff.mp
  have distinct : [(1 : ℂ), 2].Nodup := by simp
  have nonzero : (2 : ℂ) ≠ 0 := two_ne_zero
  obtain ⟨fixedIff, settledAt⟩ := fixed_iff_factors definite nonzero [-6, 4]
  have fixed : step (normalized 2 [-6, 4]) [1, 2] = [(1 : ℂ), 2] := by
    apply (fixedIff [1, 2] rfl distinct).mpr
    intro x
    simp only [Poly.horner, List.foldl_cons, List.foldl_nil, rootProduct_cons, rootProduct_nil]
    ring
  have isWithin : within (0 : ℝ) [1, 2] [(1 : ℂ), 2] = true := by
    rw [within_iff]
    intro k _ _
    rw [sub_self]
    exact norm_zero.le
  have finished : (run (normalized 2 [-6, 4]) (0 : ℝ) 1 0 [1, 2]).outcome =
      .ok ⟨[(1 : ℂ), 2], 1, true⟩ := by
    rw [run, fixed]
    simp only [isWithin, if_true]
    rfl
  exact ⟨_, finished, rfl, (settledAt [1, 2] 1 _ rfl finished rfl distinct).2⟩

end Iteration

end RootFinding
