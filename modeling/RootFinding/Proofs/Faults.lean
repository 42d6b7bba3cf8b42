import RootFinding.Proofs.ClosedForm.Totals
import RootFinding.Proofs.Iteration.Lockstep
import RootFinding.Proofs.Search

/-!
# The promises that a search can break

An iteration is only started where it has an estimate to improve and a leading coefficient to divide
by, so it never fails; a closed form is only asked for where there is one. What is left is a counter
without room, and the vanishing divisor of a quartic.
-/

namespace RootFinding

open Bag ClosedForm Coefficient Outcome Reduction

variable {K R : Type} [Zero K] [One K] [Add K] [Sub K] [Neg K] [Mul K] [Div K] [BEq K]
  [Scalar R] [Coefficient K R]

namespace Iteration

omit [Neg K] [BEq K] in
/-- A run ends, with as many estimates as it started from. -/
theorem exists_run (monic : List K) (tolerance : R) (fuel done : Nat) (points : List K) :
    ∃ outcome, (run monic tolerance fuel done points).outcome = .ok outcome ∧
      outcome.points.length = points.length := by
  obtain ⟨last, settled, _, isRun⟩ := exists_stopsAt_run monic tolerance fuel done points
  exact ⟨_, by rw [isRun, stopped], length_iterate_step monic points last⟩

omit [Neg K] in
/-- An iteration on a core ends, with as many estimates as the core has degrees. -/
theorem exists_solve {core : List K} (tight : Tight core) (positive : 2 ≤ core.length)
    (tolerance : R) (cap : Nat) :
    ∃ outcome, (solve core tolerance cap).outcome = .ok outcome ∧
      outcome.points.length = core.length - 1 := by
  obtain ⟨lead, rest, rfl, kept⟩ := tight.first
  match rest with
  | [] => simp at positive
  | next :: rest =>
      obtain ⟨outcome, finished, length⟩ := exists_run
        (if lead == 1 then lead :: next :: rest else (lead :: next :: rest).map (· / lead))
        tolerance cap 0 (seeds (next :: rest).length)
      refine ⟨outcome, ?_, ?_⟩
      · rw [solve, kept]
        exact finished
      · rw [length, seeds, length_powers]
        rfl

end Iteration

/-- A closed form is chosen up to degree four. -/
theorem SearchOptions.le_four_of_usesClosedForm {options : SearchOptions R} {degree : Nat}
    (uses : options.usesClosedForm degree = true) : degree ≤ 4 := by
  rcases Bool.or_eq_true_iff.mp uses with constant | bounded
  · rw [beq_iff_eq.mp constant]
    decide
  · exact of_decide_eq_true (Bool.and_eq_true_iff.mp bounded).1

/-- An iteration is only chosen from degree one on. -/
theorem SearchOptions.pos_of_not_usesClosedForm {options : SearchOptions R} {degree : Nat}
    (refuses : ¬options.usesClosedForm degree = true) : 0 < degree := by
  simp only [usesClosedForm, Bool.or_eq_true, beq_iff_eq] at refuses
  omega

/-- A report for a core fails for want of room, or in the formula for a quartic. -/
theorem reportOfCore_eq_error {core : List K} (tight : Tight core) {options : SearchOptions R}
    {order : TableOrder K} {cause : Fault}
    (failed : reportOfCore core options order = .error cause) :
    cause = .countOverflow ∨ options.usesClosedForm 4 = true ∧
      ∃ lead a b c d, core = [lead, a, b, c, d] ∧
        (ClosedForm.quartic order lead a b c d).outcome = .error cause := by
  unfold reportOfCore at failed
  split at failed
  · next uses =>
    simp only [bind_eq_error, pure_eq_ok, reduceCtorEq, and_false, exists_false, or_false] at failed
    have degreeBound := SearchOptions.le_four_of_usesClosedForm uses
    rw [ClosedForm.solve, ClosedForm.outcome_solveReduced_of_tight tight] at failed
    obtain ⟨lead, a, b, c, d, shape, quarticFailed⟩ :=
      ClosedForm.solveCore_eq_error tight.ne_nil (by omega) failed
    refine Or.inr ⟨?_, lead, a, b, c, d, shape, quarticFailed⟩
    rw [shape] at uses
    exact uses
  · next refuses =>
    have positive := SearchOptions.pos_of_not_usesClosedForm refuses
    obtain ⟨found, finished, _⟩ :=
      Iteration.exists_solve tight (by omega) options.tolerance options.maxIterations
    rw [finished, ok_bind] at failed
    simp only [bind_eq_error, pure_eq_ok, reduceCtorEq, and_false, exists_false, or_false] at failed
    exact Or.inl (eq_countOverflow_of_insertAll failed)

/-- A search that breaks a promise does so for want of room, or in the formula for a quartic. -/
theorem Poly.search_eq_fault {p : Poly K} (substantial : Substantial p.coeffs)
    {options : SearchOptions R} {order : TableOrder K} {cause : Fault}
    (failed : (p.search options order).outcome = .error (.fault cause)) :
    cause = .countOverflow ∨ options.usesClosedForm 4 = true ∧
      ∃ lead a b c d, (ofCoeffs p.coeffs).core = [lead, a, b, c, d] ∧
        (ClosedForm.quartic order lead a b c d).outcome = .error cause := by
  rw [outcome_search] at failed
  split at failed
  · cases failed
  · have foundRoots : (p.findRoots options order).outcome = .error cause := by
      cases outcome : (p.findRoots options order).outcome with
      | ok report => simp [outcome] at failed
      | error other => simpa [outcome] using failed
    rw [outcome_findRoots, bind_eq_error] at foundRoots
    rcases foundRoots with inCore | ⟨report, _, inZeros⟩
    · exact reportOfCore_eq_error (tight_core substantial) inCore
    · simp only [Report.addZeros, bind_eq_error, pure_eq_ok, reduceCtorEq, and_false, exists_false,
        or_false] at inZeros
      exact Or.inl (eq_countOverflow_of_insertAll inZeros)

variable [StandardConstants K]

namespace ClosedForm

/-- A depressed quartic with a linear term vanishes if the divisor does that the chosen root of its
resolvent leads to. Of several that are furthest the one that is walked last is chosen. -/
def DepressedQuartic.Vanishes (quartic : DepressedQuartic K) (order : TableOrder K) : Prop :=
  isNegligible quartic.q = false ∧
    ∃ resolventRoots y, (solveCubic quartic.resolvent.coeffs).outcome = .ok resolventRoots ∧
      last? (fun y => abs (quartic.divisorSquare y)) (resolventRoots.arranged order).toList =
          some y ∧
        (sqrt (quartic.divisorSquare y) == 0) = true

/-- The only failure of Ferrari's method on the roots of the resolvent is a vanishing divisor. -/
theorem DepressedQuartic.roots_eq_vanishingDivisor_iff (quartic : DepressedQuartic K)
    (order : TableOrder K) :
    (quartic.roots order).outcome = .error .vanishingDivisor ↔ quartic.Vanishes order := by
  unfold roots Vanishes
  by_cases noLinearTerm : isNegligible quartic.q = true
  · rw [if_pos noLinearTerm]
    have four : Yields (do
        Traced.report [.depressedBiquadratic]
        ((← solveCubic [1, quartic.p, quartic.r]).arranged order).flatMap quartic.squareRoots) 4 :=
      (yields_flatMap_squares order (fun _ => rfl) _ _).report _
    obtain ⟨bag, finished, _⟩ := four
    rw [finished]
    simp [noLinearTerm]
  · have linearTerm : isNegligible quartic.q = false := Bool.eq_false_iff.mpr noLinearTerm
    obtain ⟨resolventRoots, found, total⟩ := quartic.yields_resolvent
    have nonempty : (resolventRoots.arranged order).toList ≠ [] :=
      List.ne_nil_of_length_pos (by rw [length_toList, total_arranged, total]; omega)
    obtain ⟨y, furthest⟩ := exists_last? (fun y => abs (quartic.divisorSquare y)) nonempty
    rw [if_neg noLinearTerm, Traced.outcome_bind, found, ok_bind, ferrari]
    simp only [furthest, linearTerm, true_and]
    constructor
    · intro failed
      -- With a divisor other than zero the four roots fit a counter, so that there is no failure.
      refine ⟨resolventRoots, y, rfl, furthest, ?_⟩
      by_contra nonzero
      obtain ⟨bag, built, _⟩ := yields_ofList
        (quartic.splitRoots y (sqrt (quartic.divisorSquare y)))
        (le_countLimit (by simp [splitRoots]))
      rw [if_neg nonzero, built] at failed
      cases failed
    · rintro ⟨_, z, same, furthestHere, vanishes⟩
      obtain rfl := Except.ok.inj same
      obtain rfl := Option.some.inj (furthest.symm.trans furthestHere)
      rw [if_pos vanishes]
      rfl

/-- A quartic fails at a vanishing divisor exactly if it is not a quadratic in `x²` and its
depressed form vanishes. -/
theorem quartic_eq_vanishingDivisor_iff (order : TableOrder K) (lead a b c d : K) :
    (quartic order lead a b c d).outcome = .error .vanishingDivisor ↔
      (isNegligible (overLead lead a) && isNegligible (overLead lead c)) = false ∧
        (DepressedQuartic.ofMonic (overLead lead a) (overLead lead b) (overLead lead c)
          (overLead lead d)).Vanishes order := by
  unfold quartic monicQuartic
  by_cases biquadratic :
      (isNegligible (overLead lead a) && isNegligible (overLead lead c)) = true
  · rw [if_pos biquadratic]
    have four : Yields (do
        Traced.report [.biquadratic]
        ((← solveCubic [1, overLead lead b, overLead lead d]).arranged order).flatMap fun square =>
          let x := sqrt square
          [x, -x]) 4 := (yields_flatMap_squares order (fun _ => rfl) _ _).report _
    obtain ⟨bag, finished, _⟩ := four
    rw [finished]
    simp [biquadratic]
  · rw [if_neg biquadratic, DepressedQuartic.roots_eq_vanishingDivisor_iff]
    simp [Bool.eq_false_iff.mpr biquadratic]

end ClosedForm

/-- A search comes to solve this depressed quartic: it uses the closed form for degree four, and its
core is a quartic that is not a quadratic in `x²`. -/
def Poly.DepressesTo (p : Poly K) (options : SearchOptions R) (quartic : DepressedQuartic K) :
    Prop :=
  options.usesClosedForm 4 = true ∧
    ∃ lead a b c d, (ofCoeffs p.coeffs).core = [lead, a, b, c, d] ∧
      (isNegligible (overLead lead a) && isNegligible (overLead lead c)) = false ∧
        quartic = .ofMonic (overLead lead a) (overLead lead b) (overLead lead c) (overLead lead d)

/-- A search ends at a vanishing divisor exactly if the depressed quartic that it comes to solve
vanishes. -/
theorem Poly.search_eq_vanishingDivisor_iff {p : Poly K} (substantial : Substantial p.coeffs)
    (options : SearchOptions R) (order : TableOrder K) :
    (p.search options order).outcome = .error (.fault .vanishingDivisor) ↔
      ∃ quartic, p.DepressesTo options quartic ∧ quartic.Vanishes order := by
  constructor
  · intro failed
    rcases search_eq_fault substantial failed with overflow | ⟨uses, lead, a, b, c, d, shape, cause⟩
    · cases overflow
    · obtain ⟨notBiquadratic, vanishes⟩ := (quartic_eq_vanishingDivisor_iff order lead a b c d).mp
        cause
      exact ⟨_, ⟨uses, lead, a, b, c, d, shape, notBiquadratic, rfl⟩, vanishes⟩
  · rintro ⟨_, ⟨uses, lead, a, b, c, d, shape, notBiquadratic, rfl⟩, vanishes⟩
    have cause := (quartic_eq_vanishingDivisor_iff order lead a b c d).mpr
      ⟨notBiquadratic, vanishes⟩
    have tight := tight_core substantial
    have supported : ¬(decide (maxClosedFormDegree < (ofCoeffs p.coeffs).degree) &&
        !options.allowIteration) = true := by
      simp [Reduction.degree, shape, maxClosedFormDegree]
    have usesCore : options.usesClosedForm ((ofCoeffs p.coeffs).core.length - 1) = true := by
      rw [shape]
      exact uses
    rw [outcome_search, if_neg supported, outcome_findRoots, reportOfCore, if_pos usesCore,
      ClosedForm.solve, outcome_solveReduced_of_tight tight, shape, solveCore, cause]
    rfl

end RootFinding
