import RootFinding.Proofs.Outcome
import RootFinding.Proofs.Reduction
import RootFinding.Search

/-!
# The outcome of a search

A search reduces the coefficients twice and reports events on the way. Its outcome depends on
nothing but the reduction and the order in which a table is walked: the core goes through one of the
two methods, and the zeros are added to what the method finds.
-/

namespace RootFinding

open Bag Coefficient Outcome

section Zeros

variable {K : Type} [Zero K] [BEq K]

/-- A report with further roots at the origin. -/
def Report.addZeros (report : Report K) (n : Nat) : Except Fault (Report K) := do
  return { report with roots := ← report.roots.insertAll (List.replicate n 0) }

/-- Two reports say the same of how the roots were found. -/
structure Report.SameCourse (report other : Report K) : Prop where
  method : report.method = other.method
  iterations : report.iterations = other.iterations
  converged : report.converged = other.converged

/-- Adding zeros to a report changes nothing but its roots. -/
theorem Report.eq_of_addZeros {report extended : Report K} {n : Nat}
    (added : report.addZeros n = .ok extended) :
    ∃ roots, report.roots.insertAll (List.replicate n 0) = .ok roots ∧
      extended = { report with roots } := by
  simp only [addZeros, bind_eq_ok, pure_eq_ok, Except.ok.injEq] at added
  obtain ⟨roots, inserted, rfl⟩ := added
  exact ⟨roots, inserted, rfl⟩

end Zeros

variable {K R : Type} [Zero K] [One K] [Add K] [Sub K] [Neg K] [Mul K] [Div K] [BEq K]
  [Scalar R] [Coefficient K R]

/-- What a search reports for a reduced list of coefficients, the roots at the origin left out. -/
def reportOfCore (core : List K) (options : SearchOptions R) (order : TableOrder K) :
    Except Fault (Report K) :=
  if options.usesClosedForm (core.length - 1) then do
    let roots ← (ClosedForm.solve order core).outcome
    return { roots, method := .closedForm, iterations := 0, converged := true }
  else do
    let found ← (Iteration.solve core options.tolerance options.maxIterations).outcome
    let roots ← Bag.ofList found.points
    return { roots, method := .iteration, iterations := found.steps, converged := found.settled }

/-- How the roots are found does not depend on the order in which a table is walked. -/
theorem reportOfCore_sameCourse {core : List K} {options : SearchOptions R}
    {order other : TableOrder K} {report otherReport : Report K}
    (reported : reportOfCore core options order = .ok report)
    (reportedToo : reportOfCore core options other = .ok otherReport) :
    report.SameCourse otherReport := by
  unfold reportOfCore at reported reportedToo
  split at reported
  · next uses =>
    rw [if_pos uses] at reportedToo
    simp only [bind_eq_ok, pure_eq_ok, Except.ok.injEq] at reported reportedToo
    obtain ⟨_, _, rfl⟩ := reported
    obtain ⟨_, _, rfl⟩ := reportedToo
    exact ⟨rfl, rfl, rfl⟩
  · next refuses =>
    rw [if_neg refuses] at reportedToo
    obtain rfl := Except.ok.inj (reported.symm.trans reportedToo)
    exact ⟨rfl, rfl, rfl⟩

namespace Poly

/-- The outcome of finding roots is the report for the core with the zeros added. -/
theorem outcome_findRoots (p : Poly K) (options : SearchOptions R) (order : TableOrder K) :
    (p.findRoots options order).outcome =
      (reportOfCore (Reduction.ofCoeffs p.coeffs).core options order >>= fun report =>
        report.addZeros (Reduction.ofCoeffs p.coeffs).zeros) := by
  unfold findRoots reportOfCore
  simp only [reduce, Traced.outcome_bind, Traced.outcome_report, Traced.outcome_pure, ok_bind,
    Report.addZeros]
  by_cases uses : options.usesClosedForm (Reduction.ofCoeffs p.coeffs).degree = true
  · have usesCore : options.usesClosedForm ((Reduction.ofCoeffs p.coeffs).core.length - 1) = true :=
      uses
    rw [if_pos uses, if_pos usesCore]
    simp only [Traced.outcome_bind, Traced.outcome_report, Traced.outcome_lift,
      Traced.outcome_pure, ok_bind, bind_assoc, pure_eq_ok]
  · have refusesCore :
        ¬options.usesClosedForm ((Reduction.ofCoeffs p.coeffs).core.length - 1) = true := uses
    rw [if_neg uses, if_neg refusesCore]
    simp only [Traced.outcome_bind, Traced.outcome_report, Traced.outcome_lift,
      Traced.outcome_pure, ok_bind, bind_assoc, pure_eq_ok]

/-- A search refuses a high degree that it may not iterate on, and otherwise finds the roots. -/
theorem outcome_search (p : Poly K) (options : SearchOptions R) (order : TableOrder K) :
    (p.search options order).outcome =
      if maxClosedFormDegree < (Reduction.ofCoeffs p.coeffs).degree && !options.allowIteration then
        .error (.unsupportedDegree (Reduction.ofCoeffs p.coeffs).degree)
      else (p.findRoots options order).outcome.mapError .fault := by
  unfold search
  simp only [reduce, Traced.outcome_bind, Traced.outcome_report, Traced.outcome_pure, ok_bind]
  split
  · rfl
  · rfl

/-- A report is one for the core with the roots at the origin added. -/
theorem exists_reportOfCore {p : Poly K} {options : SearchOptions R} {order : TableOrder K}
    {report : Report K} (finished : (p.search options order).outcome = .ok report) :
    ∃ reportHere, reportOfCore (Reduction.ofCoeffs p.coeffs).core options order = .ok reportHere ∧
      reportHere.addZeros (Reduction.ofCoeffs p.coeffs).zeros = .ok report := by
  rw [outcome_search] at finished
  split at finished
  · cases finished
  · rwa [mapError_eq_ok, outcome_findRoots, bind_eq_ok] at finished

/-- Searches for polynomials with one core take the same course, in whatever orders they walk their
tables. -/
theorem sameCourse_of_sameCore {p q : Poly K} {options : SearchOptions R}
    {order other : TableOrder K} {report otherReport : Report K}
    (sameCore : (Reduction.ofCoeffs p.coeffs).core = (Reduction.ofCoeffs q.coeffs).core)
    (finished : (p.search options order).outcome = .ok report)
    (finishedToo : (q.search options other).outcome = .ok otherReport) :
    report.SameCourse otherReport := by
  obtain ⟨reportHere, found, added⟩ := exists_reportOfCore finished
  obtain ⟨otherHere, foundToo, addedToo⟩ := exists_reportOfCore finishedToo
  obtain ⟨_, _, rfl⟩ := Report.eq_of_addZeros added
  obtain ⟨_, _, rfl⟩ := Report.eq_of_addZeros addedToo
  rw [sameCore] at found
  obtain ⟨method, iterations, converged⟩ := reportOfCore_sameCourse found foundToo
  exact ⟨method, iterations, converged⟩

/-- A search refuses a degree above four that it may not iterate on, and nothing else. -/
theorem search_eq_unsupportedDegree_iff_core (p : Poly K) (options : SearchOptions R)
    (order : TableOrder K) (degree : Nat) :
    (p.search options order).outcome = .error (.unsupportedDegree degree) ↔
      degree = (Reduction.ofCoeffs p.coeffs).degree ∧ options.allowIteration = false ∧
        4 < (Reduction.ofCoeffs p.coeffs).degree := by
  rw [outcome_search]
  split
  · next refuses =>
    simp only [Bool.and_eq_true, decide_eq_true_eq, Bool.not_eq_eq_eq_not, Bool.not_true] at refuses
    obtain ⟨tooHigh, forbidden⟩ := refuses
    have tooHighHere : 4 < (Reduction.ofCoeffs p.coeffs).degree := tooHigh
    simp [forbidden, tooHighHere, eq_comm]
  · next supported =>
    constructor
    · intro failed
      cases outcome : (p.findRoots options order).outcome with
      | ok report => simp [outcome] at failed
      | error cause => simp [outcome] at failed
    · rintro ⟨_, forbidden, tooHigh⟩
      have refuses : maxClosedFormDegree < (Reduction.ofCoeffs p.coeffs).degree := tooHigh
      exact absurd (by simpa [forbidden] using refuses) supported

end Poly

end RootFinding
