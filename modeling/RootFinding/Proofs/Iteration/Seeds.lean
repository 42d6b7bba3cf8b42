import RootFinding.Proofs.Iteration.FixedPoints

/-!
# The first estimates

The first estimates are the powers of one number, and its modulus is neither zero nor one. So their
moduli strictly decrease and none of them is zero. That keeps them apart from each other and from
each other's conjugates, however many there are, and so the first step does not divide by zero.
-/

namespace RootFinding.Iteration

open Coefficient Finset

/-- Powers are counted from the one that they start with. -/
theorem powers_eq_map {K : Type} [Monoid K] (base : K) (n : Nat) (power : K) :
    powers base n power = (List.range n).map fun k => power * base ^ k := by
  induction n generalizing power with
  | zero => rfl
  | succ n inductionHypothesis =>
      rw [powers, inductionHypothesis, List.range_succ_eq_map, List.map_cons, List.map_map,
        pow_zero, mul_one]
      simp only [Function.comp_def, pow_succ', mul_assoc]

/-- The number whose powers are the first estimates. -/
noncomputable def seedBase : ℂ := ofParts (0.4 : ℝ) 0.9

/-- There are as many seeds as roots. -/
theorem length_seeds (n : Nat) : (seeds n : List ℂ).length = n :=
  length_powers _ _ _

/-- The seeds are the powers of one number. -/
theorem seeds_eq_map (n : Nat) : (seeds n : List ℂ) = (List.range n).map (seedBase ^ ·) := by
  refine (powers_eq_map seedBase n 1).trans ?_
  simp only [one_mul]

/-- Each seed is the power by its place. -/
theorem get_seeds (n : Nat) (k : Fin (seeds n : List ℂ).length) :
    (seeds n : List ℂ).get k = seedBase ^ (k : Nat) := by
  rw [List.get_of_eq (seeds_eq_map n)]
  simp

/-- The square of the modulus is `0.97`. -/
theorem norm_seedBase_sq : ‖seedBase‖ ^ 2 = 0.97 := by
  have square : ‖seedBase‖ ^ 2 = (0.4 : ℝ) * 0.4 + 0.9 * 0.9 := by
    rw [Complex.sq_norm, Complex.normSq_apply]
    rfl
  rw [square]
  norm_num

/-- The modulus is positive. -/
theorem norm_seedBase_pos : 0 < ‖seedBase‖ := by
  have square := norm_seedBase_sq
  refine (norm_nonneg seedBase).lt_of_ne' fun vanishes => ?_
  rw [vanishes] at square
  norm_num at square

/-- The modulus is less than one. -/
theorem norm_seedBase_lt_one : ‖seedBase‖ < 1 := by
  have square := norm_seedBase_sq
  by_contra large
  have one_le : 1 ≤ ‖seedBase‖ ^ 2 := one_le_pow₀ (not_lt.mp large)
  rw [square] at one_le
  norm_num at one_le

/-- What a first step needs of the estimates that it starts from. -/
structure Usable (points : List ℂ) : Prop where
  /-- The moduli are positive and strictly decrease. -/
  positive : ∀ k : Fin points.length, 0 < ‖points.get k‖
  decreasing : StrictAnti fun k => ‖points.get k‖
  /-- No two estimates are equal or conjugate. -/
  distinct : points.Nodup
  notConjugate : ∀ j k : Fin points.length, j ≠ k → points.get j ≠ conj (points.get k)
  /-- What the step divides by are the products of the differences, and none of them is zero. -/
  divisor : ∀ k : Fin points.length,
    spread points k (points.get k) = ∏ j ∈ univ.erase k, (points.get k - points.get j)
  divisor_ne_zero : ∀ k : Fin points.length, spread points k (points.get k) ≠ 0

/-- Estimates of strictly decreasing positive moduli are usable: the moduli tell them apart, and a
conjugate has the same modulus. -/
theorem usable_of_decreasing {points : List ℂ} (positive : ∀ k, 0 < ‖points.get k‖)
    (decreasing : StrictAnti fun k => ‖points.get k‖) : Usable points := by
  have distinct : points.Nodup :=
    List.nodup_iff_injective_get.mpr fun j k same =>
      decreasing.injective (congrArg (fun z => ‖z‖) same)
  exact
    { positive := positive
      decreasing := decreasing
      distinct := distinct
      notConjugate := fun j k apart conjugate => by
        have sameModulus : ‖points.get j‖ = ‖points.get k‖ := by
          rw [conjugate]
          exact Complex.norm_conj (points.get k)
        exact apart (decreasing.injective sameModulus)
      divisor := fun k => spread_eq points k _
      divisor_ne_zero := spread_ne_zero distinct }

/-- However many first estimates are asked for, there are that many, they are the powers of one
number, and the first step can start from them. -/
theorem seeds_usable (n : Nat) :
    (seeds n : List ℂ).length = n ∧
      (∀ k, (seeds n : List ℂ).get k = seedBase ^ (k : Nat)) ∧
        Usable (seeds n) := by
  refine ⟨length_seeds n, get_seeds n, usable_of_decreasing (fun k => ?_) fun j k before => ?_⟩
  · rw [get_seeds, norm_pow]
    exact pow_pos norm_seedBase_pos _
  · simp only [get_seeds, norm_pow]
    exact pow_lt_pow_right_of_lt_one₀ norm_seedBase_pos norm_seedBase_lt_one before

end RootFinding.Iteration
