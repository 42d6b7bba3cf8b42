import Mathlib
import RootFinding.Poly.Basic

/-!
# Horner's rule

The value that Horner's rule computes, as a function of the list of coefficients: what a list in
front and a list behind contribute, and the sum of the coefficients times the powers.
-/

namespace RootFinding.Poly

variable {K : Type} [CommRing K]

/-- A further coefficient multiplies the value before by the point and adds itself. -/
theorem horner_append_singleton (coeffs : List K) (c x : K) :
    horner (coeffs ++ [c]) x = horner coeffs x * x + c := by
  simp [horner]

/-- Horner's rule goes on from the value so far. -/
theorem horner_append (coeffs others : List K) (x : K) :
    horner (coeffs ++ others) x = horner coeffs x * x ^ others.length + horner others x := by
  induction others using List.reverseRecOn with
  | nil => simp [horner]
  | append_singleton others c inductionHypothesis =>
      rw [← List.append_assoc, horner_append_singleton, horner_append_singleton,
        inductionHypothesis, List.length_append, List.length_singleton, pow_succ]
      ring

/-- A further leading coefficient adds its power. -/
theorem horner_cons (c : K) (coeffs : List K) (x : K) :
    horner (c :: coeffs) x = c * x ^ coeffs.length + horner coeffs x := by
  rw [← List.singleton_append, horner_append]
  simp [horner]

/-- Coefficients that are all zero add nothing. -/
theorem horner_eq_zero {coeffs : List K} (zeros : ∀ c ∈ coeffs, c = 0) (x : K) :
    horner coeffs x = 0 := by
  induction coeffs with
  | nil => rfl
  | cons c coeffs inductionHypothesis =>
      obtain ⟨isZero, others⟩ := List.forall_mem_cons.mp zeros
      rw [horner_cons, isZero, zero_mul, zero_add, inductionHypothesis others]

/-- The value is the sum of the coefficients times the powers. -/
theorem horner_eq_sum (coeffs : List K) (x : K) :
    horner coeffs x = ∑ i : Fin coeffs.length, coeffs[i] * x ^ (coeffs.length - 1 - i) := by
  induction coeffs with
  | nil => rfl
  | cons c coeffs inductionHypothesis =>
      have shifted (i : Fin coeffs.length) :
          (c :: coeffs).length - 1 - i.succ.val = coeffs.length - 1 - i := by
        rw [List.length_cons, Fin.val_succ]
        omega
      rw [horner_cons, inductionHypothesis]
      refine Eq.trans ?_ (Fin.sum_univ_succ _).symm
      simp only [shifted]
      rfl

end RootFinding.Poly
