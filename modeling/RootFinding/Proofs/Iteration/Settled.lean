import RootFinding.Proofs.Exact.ComplexField
import RootFinding.Proofs.Iteration.Interpolation
import RootFinding.Proofs.Iteration.Lockstep

/-!
# What it means that the estimates have settled

An iteration stops when no estimate moves by more than a tolerance, that is, when all corrections
are small. At a root that is no estimate the corrections, each over the distance to its estimate,
add up to minus one, so one of them is at least an `n`-th of the distance. Hence every root of the
polynomial is near an estimate, and one step further by no more than the tolerance.
-/

namespace RootFinding

open Coefficient Finset Outcome

namespace Iteration

section Run

variable {K R : Type} [Zero K] [One K] [Add K] [Sub K] [Mul K] [Div K] [Scalar R]
  [Coefficient K R]

/-- A run that has settled did so in its last step, which started from some iterate. -/
theorem exists_last_step {monic : List K} {tolerance : R} {fuel done : Nat} {points : List K}
    {found : Outcome K} (finished : (run monic tolerance fuel done points).outcome = .ok found)
    (settled : found.settled = true) :
    ∃ before, found.steps = done + before + 1 ∧
      found.points = step monic ((step monic)^[before] points) ∧
        within tolerance ((step monic)^[before] points) found.points = true := by
  obtain ⟨last, isSettled, stops, isRun⟩ := exists_stopsAt_run monic tolerance fuel done points
  rw [isRun] at finished
  obtain rfl := Except.ok.inj finished
  change isSettled = true at settled
  subst settled
  obtain ⟨⟨positive, _, stays⟩, _⟩ := stops
  obtain ⟨before, rfl⟩ := Nat.exists_eq_add_of_le' positive
  exact ⟨before, rfl, Function.iterate_succ_apply' _ _ _, within_iff.mpr stays⟩

end Run

/-- Where the leading coefficient is not zero, dividing it out leaves one. -/
theorem normalized_eq {K : Type} [Field K] [BEq K] [LawfulBEq K] {lead : K} (nonzero : lead ≠ 0)
    (rest : List K) : normalized lead rest = 1 :: rest.map (· / lead) := by
  unfold normalized
  split
  · next isOne => simp [eq_of_beq isOne]
  · rw [List.map_cons, div_self nonzero]

variable {rest points : List ℂ}

/-- A correction is no larger than the tolerance of a settled step. -/
theorem norm_correction_le {monic : List ℂ} {tolerance : ℝ}
    (isWithin : within tolerance points (step monic points) = true) (k : Fin points.length) :
    ‖correction monic points k‖ ≤ tolerance := by
  have distance : ‖points.get k - (step monic points).get ⟨k, by simp⟩‖ ≤ tolerance :=
    within_iff.mp isWithin k k.isLt (by simp)
  rwa [get_step, sub_sub_cancel] at distance

/-- Every root is near an estimate, in terms of its correction. -/
theorem exists_norm_sub_le (length : points.length = rest.length) (distinct : points.Nodup) {x : ℂ}
    (isRoot : Poly.horner (1 :: rest) x = 0) :
    ∃ k, ‖x - points.get k‖ ≤ points.length * ‖correction (1 :: rest) points k‖ := by
  by_cases apart : ∀ k, x ≠ points.get k
  · have factors := horner_eq_nodal_mul length distinct apart
    have nodal : ∏ k, (x - points.get k) ≠ 0 :=
      Finset.prod_ne_zero_iff.mpr fun k _ => sub_ne_zero.mpr (apart k)
    have total : ∑ k, correction (1 :: rest) points k / (x - points.get k) = -1 := by
      rw [isRoot] at factors
      linear_combination (mul_eq_zero.mp factors.symm).resolve_left nodal
    have large : 1 ≤ ∑ k, ‖correction (1 :: rest) points k / (x - points.get k)‖ := by
      have bound := norm_sum_le univ fun k => correction (1 :: rest) points k / (x - points.get k)
      rwa [total, norm_neg, norm_one] at bound
    have nonempty : (univ : Finset (Fin points.length)).Nonempty := by
      rw [Finset.nonempty_iff_ne_empty]
      intro empty
      rw [empty, Finset.sum_empty] at total
      norm_num at total
    have positive : (0 : ℝ) < points.length := by
      have card := Finset.card_pos.mpr nonempty
      rw [Finset.card_fin] at card
      exact_mod_cast card
    -- One of the quotients is at least their mean.
    obtain ⟨k, _, share⟩ := Finset.exists_le_of_sum_le nonempty
      (f := fun _ => 1 / (points.length : ℝ))
      (g := fun k => ‖correction (1 :: rest) points k / (x - points.get k)‖)
      (by simpa [positive.ne'] using large)
    refine ⟨k, ?_⟩
    have distance : 0 < ‖x - points.get k‖ := norm_pos_iff.mpr (sub_ne_zero.mpr (apart k))
    rw [norm_div, div_le_div_iff₀ positive distance] at share
    linarith
  · obtain ⟨k, isEstimate⟩ := not_forall.mp apart
    refine ⟨k, ?_⟩
    rw [not_not.mp isEstimate, sub_self, norm_zero]
    positivity

/-- Settled estimates are near all roots. If the iterate before the last step has no estimate twice,
every root of the polynomial is within `n + 1` times the tolerance of an estimate, for the degree
`n`. -/
theorem settled_near_roots {lead : ℂ} (nonzero : lead ≠ 0) (rest : List ℂ) (tolerance : ℝ)
    (cap : Nat) {found : Outcome ℂ}
    (finished : (iterate lead rest tolerance cap).outcome = .ok found)
    (settled : found.settled = true)
    (distinct : ((step (normalized lead rest))^[found.steps - 1] (seeds rest.length)).Nodup) {x : ℂ}
    (isRoot : Poly.horner (lead :: rest) x = 0) :
    ∃ z ∈ found.points, ‖x - z‖ ≤ (rest.length + 1) * tolerance := by
  rw [iterate_eq_run] at finished
  obtain ⟨before, steps, foundPoints, isWithin⟩ := exists_last_step finished settled
  rw [steps, Nat.zero_add, Nat.add_sub_cancel] at distinct
  have length : ((step (normalized lead rest))^[before] (seeds rest.length)).length =
      rest.length := by
    rw [length_iterate_step, seeds, length_powers]
  rw [foundPoints] at isWithin ⊢
  rw [normalized_eq nonzero] at *
  generalize (step (1 :: rest.map (· / lead)))^[before] (seeds rest.length) = points at *
  have monicRoot : Poly.horner (1 :: rest.map (· / lead)) x = 0 := by
    have divided := Poly.horner_map_div (lead :: rest) lead x
    rwa [isRoot, zero_div, List.map_cons, div_self nonzero] at divided
  obtain ⟨k, near⟩ := exists_norm_sub_le (by simpa using length) distinct monicRoot
  have small := norm_correction_le isWithin k
  refine ⟨_, List.get_mem _ ⟨k, by simp⟩, ?_⟩
  rw [get_step]
  calc ‖x - (points.get k - correction (1 :: rest.map (· / lead)) points k)‖
      = ‖(x - points.get k) + correction (1 :: rest.map (· / lead)) points k‖ := by
        congr 1
        ring
    _ ≤ ‖x - points.get k‖ + ‖correction (1 :: rest.map (· / lead)) points k‖ := norm_add_le _ _
    _ ≤ points.length * ‖correction (1 :: rest.map (· / lead)) points k‖ +
          ‖correction (1 :: rest.map (· / lead)) points k‖ := by
        gcongr
    _ = (rest.length + 1) * ‖correction (1 :: rest.map (· / lead)) points k‖ := by
        rw [length]
        ring
    _ ≤ (rest.length + 1) * tolerance := by
        gcongr

/-- The first two seeds are apart. -/
theorem one_ne_seed : (1 : ℂ) ≠ ofParts (0.4 : ℝ) 0.9 := by
  intro same
  have imaginaryParts : (0 : ℝ) = 0.9 := congrArg (fun z : ℂ => z.im) same
  norm_num at imaginaryParts

/-- From seeds that are the roots of a quadratic already, one step settles within a tolerance of
zero, and both roots are among the estimates. -/
theorem settled_near_roots_seeds : ∃ found : Iteration.Outcome ℂ,
    (iterate 1 [-(1 + ofParts (0.4 : ℝ) 0.9), ofParts (0.4 : ℝ) 0.9] (0 : ℝ) 1).outcome =
        .ok found ∧ found.settled = true ∧
      (1 : ℂ) ∈ found.points ∧ (ofParts (0.4 : ℝ) 0.9 : ℂ) ∈ found.points := by
  have apart := one_ne_seed
  have areSeeds : (seeds 2 : List ℂ) = [1, ofParts (0.4 : ℝ) 0.9] := by
    simp [seeds, powers]
  generalize (ofParts (0.4 : ℝ) 0.9 : ℂ) = s at *
  have normal : normalized 1 [-(1 + s), s] = [1, -(1 + s), s] := if_pos (beq_self_eq_true 1)
  have fixed : step [1, -(1 + s), s] [1, s] = [1, s] := by
    have atOne : Poly.horner [1, -(1 + s), s] 1 = 0 := by
      simp [Poly.horner]
    have atOther : Poly.horner [1, -(1 + s), s] s = 0 := by
      simp only [Poly.horner, List.foldl_cons, List.foldl_nil]
      ring
    simp only [step, List.mapIdx_cons, List.mapIdx_nil, atOne, atOther, zero_div, sub_zero]
  have isWithin : within (0 : ℝ) [1, s] [1, s] = true := by
    have noMove (z : ℂ) : decide ((abs (z - z) : ℝ) ≤ 0) = true := by
      apply decide_eq_true
      rw [sub_self]
      exact norm_zero.le
    simp only [within, List.zip_cons_cons, List.zip_nil_left, List.all_cons, List.all_nil, noMove]
    rfl
  have finished : (iterate 1 [-(1 + s), s] (0 : ℝ) 1).outcome = .ok ⟨[1, s], 1, true⟩ := by
    rw [iterate_eq_run, normal]
    change (run [1, -(1 + s), s] (0 : ℝ) 1 0 (seeds 2)).outcome = _
    rw [areSeeds, run, fixed]
    simp only [Traced.outcome_bind, Traced.outcome_report, ok_bind, isWithin]
    rfl
  have distinct : ((step (normalized 1 [-(1 + s), s]))^[1 - 1] (seeds 2)).Nodup := by
    rw [Nat.sub_self, Function.iterate_zero_apply, areSeeds]
    simpa using apart
  have among {x : ℂ} (isRoot : Poly.horner [1, -(1 + s), s] x = 0) : x ∈ [1, s] := by
    obtain ⟨z, member, near⟩ := settled_near_roots one_ne_zero _ 0 1 finished rfl distinct isRoot
    rw [mul_zero, norm_le_zero_iff, sub_eq_zero] at near
    rwa [near]
  exact ⟨_, finished, rfl, among (by simp [Poly.horner]),
    among (by simp only [Poly.horner, List.foldl_cons, List.foldl_nil]; ring)⟩

end Iteration

end RootFinding
