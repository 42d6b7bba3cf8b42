import RootFinding.Proofs.Multiplicity
import RootFinding.Proofs.Padding

/-!
# The contract of a search

Everything that a search decides, it decides by the distance between the first and the last
coefficient that is not negligible, which is the degree that each of its reductions arrives at. That
degree and the options say whether the request is refused, which method answers it, and that the
method is asked for no more than it can do. `search_contract` puts the decisions together, for every
order in which a table may be walked. Only the closed form of a quartic walks one.
-/

namespace RootFinding

open Bag ClosedForm Coefficient Outcome Reduction

section Span

variable {K R : Type} [Coefficient K R]

/-- The distance between the first and the last coefficient that is not negligible. -/
def span (coeffs : List K) : Nat :=
  coeffs.length - 1 - coeffs.findIdx (fun c => !isNegligible c) -
    coeffs.reverse.findIdx (fun c => !isNegligible c)

/-- Behind a negligible front comes the first coefficient that is not negligible. -/
theorem findIdx_kept {front : List K} (frontNegligible : ∀ c ∈ front, isNegligible c = true)
    {lead : K} (kept : isNegligible lead = false) (rest : List K) :
    (front ++ lead :: rest).findIdx (fun c => !isNegligible c) = front.length := by
  induction front with
  | nil => simp [List.findIdx_cons, kept]
  | cons c front inductionHypothesis =>
      obtain ⟨negligible, others⟩ := List.forall_mem_cons.mp frontNegligible
      simp [List.findIdx_cons, negligible, inductionHypothesis others]

/-- The degree that a reduction arrives at. -/
theorem degree_ofCoeffs {coeffs : List K} (substantial : Substantial coeffs) :
    (ofCoeffs coeffs).degree = span coeffs := by
  obtain ⟨front, back, parts, frontNegligible, backNegligible, _⟩ := exists_split substantial
  have tight := tight_core substantial
  obtain ⟨lead, rest, shape, leadKept⟩ := tight.first
  obtain ⟨init, final, shapeAtEnd, finalKept⟩ := tight.last
  have first : coeffs.findIdx (fun c => !isNegligible c) = front.length := by
    have regrouped : coeffs = front ++ lead :: (rest ++ back) := by
      conv_lhs => rw [parts, shape]
      simp
    rw [regrouped]
    exact findIdx_kept frontNegligible leadKept _
  have last : coeffs.reverse.findIdx (fun c => !isNegligible c) = back.length := by
    have regrouped : coeffs.reverse = back.reverse ++ final :: (init.reverse ++ front.reverse) := by
      conv_lhs => rw [parts, shapeAtEnd]
      simp
    rw [regrouped, findIdx_kept (by simpa using backNegligible) finalKept, List.length_reverse]
  have lengths := congrArg List.length parts
  have nonempty := List.length_pos_of_ne_nil tight.ne_nil
  rw [List.length_append, List.length_append] at lengths
  rw [Reduction.degree, span, first, last]
  omega

end Span

variable {K R : Type} [Zero K] [One K] [Add K] [Sub K] [Neg K] [Mul K] [Div K] [BEq K]
  [Scalar R] [Coefficient K R]

/-- When a closed form answers. -/
theorem SearchOptions.usesClosedForm_iff (options : SearchOptions R) (degree : Nat) :
    options.usesClosedForm degree = true ↔
      degree = 0 ∨
        degree ≤ 4 ∧ (options.preferClosedForm = true ∨ options.allowIteration = false) := by
  simp only [usesClosedForm, Bool.or_eq_true, beq_iff_eq, Bool.and_eq_true, decide_eq_true_eq,
    Bool.not_eq_eq_eq_not, Bool.not_true]
  rfl

section Report

/-- The method of a report is the one that the degree and the options choose, and a closed form
takes no steps and always settles. -/
theorem method_reportOfCore {core : List K} {options : SearchOptions R} {order : TableOrder K}
    {report : Report K} (reported : reportOfCore core options order = .ok report) :
    (report.method = .closedForm ↔ options.usesClosedForm (core.length - 1) = true) ∧
      (report.method = .closedForm → report.iterations = 0 ∧ report.converged = true) := by
  unfold reportOfCore at reported
  split at reported
  · next uses =>
    simp only [bind_eq_ok, pure_eq_ok, Except.ok.injEq] at reported
    obtain ⟨roots, _, rfl⟩ := reported
    simp [uses]
  · next refuses =>
    simp only [bind_eq_ok, pure_eq_ok, Except.ok.injEq] at reported
    obtain ⟨found, _, roots, _, rfl⟩ := reported
    simp [refuses]

/-- The method of a search's report. -/
theorem Poly.method_search {p : Poly K} (substantial : Substantial p.coeffs)
    {options : SearchOptions R} {order : TableOrder K} {report : Report K}
    (finished : (p.search options order).outcome = .ok report) :
    (report.method = .closedForm ↔ options.usesClosedForm (span p.coeffs) = true) ∧
      (report.method = .closedForm → report.iterations = 0 ∧ report.converged = true) := by
  obtain ⟨reportHere, reported, added⟩ := exists_reportOfCore finished
  obtain ⟨roots, _, rfl⟩ := Report.eq_of_addZeros added
  obtain ⟨method, settled⟩ := method_reportOfCore reported
  rw [← degree_ofCoeffs substantial]
  exact ⟨method, settled⟩

end Report

section Independence

/-- A closed form looks neither at the tolerance nor at the cap of an iteration. -/
theorem Poly.search_eq_of_usesClosedForm {p : Poly K} {options : SearchOptions R}
    (uses : options.usesClosedForm (ofCoeffs p.coeffs).degree = true) (tolerance : R) (cap : Nat)
    (order : TableOrder K) :
    p.search { options with tolerance, maxIterations := cap } order = p.search options order := by
  have sameRoots : p.findRoots { options with tolerance, maxIterations := cap } order =
      p.findRoots options order := by
    unfold findRoots
    apply Traced.bind_congr
    intro reduction reduced
    obtain rfl : ofCoeffs p.coeffs = reduction := by simpa [reduce] using reduced
    have usesToo : SearchOptions.usesClosedForm
        { options with tolerance, maxIterations := cap } (ofCoeffs p.coeffs).degree = true := uses
    rw [if_pos uses, if_pos usesToo]
  unfold search
  rw [sameRoots]

/-- Among the closed forms only that of a quartic walks a table. -/
theorem ClosedForm.solve_eq_of_length_ne {coeffs : List K}
    (notQuartic : (ofCoeffs coeffs).core.length ≠ 5) (order other : TableOrder K) :
    solve order coeffs = solve other coeffs := by
  unfold solve solveReduced
  apply Traced.bind_congr
  intro reduction reduced
  obtain rfl : ofCoeffs coeffs = reduction := by simpa [reduce] using reduced
  generalize (ofCoeffs coeffs).core = core at notQuartic ⊢
  rcases core with _ | ⟨lead, _ | ⟨a, _ | ⟨b, _ | ⟨c, _ | ⟨d, _ | ⟨next, rest⟩⟩⟩⟩⟩⟩
  case cons.cons.cons.cons.cons.nil => exact absurd rfl notQuartic
  all_goals rfl

/-- The order in which a table is walked plays no part but in the closed form of a quartic. -/
theorem Poly.search_eq_of_not_quartic {p : Poly K} (substantial : Substantial p.coeffs)
    {options : SearchOptions R}
    (notQuartic : options.usesClosedForm 4 = false ∨ (ofCoeffs p.coeffs).degree ≠ 4)
    (order other : TableOrder K) : p.search options order = p.search options other := by
  have sameRoots : p.findRoots options order = p.findRoots options other := by
    unfold findRoots
    apply Traced.bind_congr
    intro reduction reduced
    obtain rfl : ofCoeffs p.coeffs = reduction := by simpa [reduce] using reduced
    split
    · next uses =>
      have sameSolve :
          solve order (ofCoeffs p.coeffs).core = solve other (ofCoeffs p.coeffs).core := by
        refine solve_eq_of_length_ne (fun five => ?_) order other
        rw [ofCoeffs_core substantial] at five
        have four : (ofCoeffs p.coeffs).degree = 4 := by rw [Reduction.degree, five]
        rw [four] at uses notQuartic
        exact notQuartic.elim (by simp [uses]) (absurd rfl)
      rw [sameSolve]
    · rfl
  unfold search
  rw [sameRoots]

end Independence

/-- The roots alone are those of the report that a search with the same preference gives. -/
theorem Poly.outcome_roots (p : Poly K) (preferClosedForm : Bool) (order : TableOrder K) :
    ((p.roots preferClosedForm order).mapError Error.fault).outcome =
      (p.search { preferClosedForm := preferClosedForm } order).outcome.map Report.roots := by
  rw [outcome_search, if_neg (by simp), roots]
  simp only [Traced.outcome_mapError, Traced.outcome_bind, Traced.outcome_pure]
  cases (p.findRoots { preferClosedForm } order).outcome with
  | error cause => rfl
  | ok report => rfl

/-- A search refuses a degree above four that it may not iterate on, and nothing else. -/
theorem Poly.search_eq_unsupportedDegree_iff {p : Poly K} (substantial : Substantial p.coeffs)
    (options : SearchOptions R) (order : TableOrder K) (degree : Nat) :
    (p.search options order).outcome = .error (.unsupportedDegree degree) ↔
      degree = span p.coeffs ∧ options.allowIteration = false ∧ 4 < span p.coeffs := by
  rw [search_eq_unsupportedDegree_iff_core, degree_ofCoeffs substantial]

omit [Neg K] in
/-- Where no closed form answers, the iteration has an estimate to improve and a leading coefficient
to divide by. -/
theorem exists_iteration {coeffs : List K} (substantial : Substantial coeffs)
    {options : SearchOptions R} (refuses : options.usesClosedForm (span coeffs) = false) :
    ∃ lead next rest, (ofCoeffs coeffs).core = lead :: next :: rest ∧ isNegligible lead = false ∧
      ∀ (tolerance : R) (cap : Nat), Iteration.solve (ofCoeffs coeffs).core tolerance cap =
        Iteration.iterate lead (next :: rest) tolerance cap := by
  have positive := SearchOptions.pos_of_not_usesClosedForm (Bool.eq_false_iff.mp refuses)
  rw [← degree_ofCoeffs substantial, Reduction.degree] at positive
  obtain ⟨lead, rest, shape, kept⟩ := (tight_core substantial).first
  rw [shape] at positive ⊢
  cases rest with
  | nil => simp at positive
  | cons next rest =>
      refine ⟨lead, next, rest, rfl, kept, ?_⟩
      intro tolerance cap
      rw [Iteration.solve, kept]
      rfl

variable [StandardConstants K]

section Faults

/-- The only failure of a quartic is a vanishing divisor. -/
theorem ClosedForm.quartic_eq_error {order : TableOrder K} {lead a b c d : K} {cause : Fault}
    (failed : (quartic order lead a b c d).outcome = .error cause) :
    cause = .vanishingDivisor := by
  rcases quartic_outcome order lead a b c d with ⟨bag, finished, _⟩ | vanished
  · cases finished.symm.trans failed
  · exact Except.error.inj (failed.symm.trans vanished)

/-- A core with as many degrees as a counter can hold has room for its roots. -/
theorem reportOfCore_ne_countOverflow {core : List K} (tight : Tight core)
    (fits : core.length - 1 ≤ countLimit) (options : SearchOptions R) (order : TableOrder K) :
    reportOfCore core options order ≠ .error .countOverflow := by
  intro failed
  unfold reportOfCore at failed
  split at failed
  · next uses =>
    simp only [bind_eq_error, pure_eq_ok, reduceCtorEq, and_false, exists_false, or_false] at failed
    have degreeBound := SearchOptions.le_four_of_usesClosedForm uses
    rw [ClosedForm.solve, outcome_solveReduced_of_tight tight] at failed
    obtain ⟨lead, a, b, c, d, _, quarticFailed⟩ :=
      solveCore_eq_error tight.ne_nil (by omega) failed
    cases quartic_eq_error quarticFailed
  · next refuses =>
    have positive := SearchOptions.pos_of_not_usesClosedForm refuses
    obtain ⟨found, finished, length⟩ :=
      Iteration.exists_solve tight (by omega) options.tolerance options.maxIterations
    have fits : found.points.length ≤ countLimit := by omega
    obtain ⟨bag, built⟩ := exists_ofList fits
    rw [finished, ok_bind, built] at failed
    cases failed

/-- A polynomial with as many degrees as a counter can hold has room for its roots. -/
theorem Poly.search_ne_countOverflow {p : Poly K} (substantial : Substantial p.coeffs)
    (fits : p.degree ≤ countLimit) (options : SearchOptions R) (order : TableOrder K) :
    (p.search options order).outcome ≠ .error (.fault .countOverflow) := by
  intro failed
  have tight := tight_core substantial
  have parts := length_core_add_zeros substantial
  have trimmed := (List.dropWhile_suffix isNegligible (l := p.coeffs)).length_le
  have corePositive := List.length_pos_of_ne_nil tight.ne_nil
  rw [Poly.degree] at fits
  rw [outcome_search] at failed
  split at failed
  · cases failed
  · cases outcome : (p.findRoots options order).outcome with
    | ok report => simp [outcome] at failed
    | error cause =>
        have isOverflow : cause = .countOverflow := by simpa [outcome] using failed
        rw [isOverflow, outcome_findRoots, bind_eq_error] at outcome
        rcases outcome with inCore | ⟨report, reported, inZeros⟩
        · exact reportOfCore_ne_countOverflow tight (by omega) options order inCore
        · have total := total_reportOfCore tight reported
          obtain ⟨extended, added⟩ := report.exists_addZeros
            (n := (ofCoeffs p.coeffs).zeros) (by omega)
          cases added.symm.trans inZeros

/-- A search that gives no report refuses the degree, or is stopped by the divisor of a quartic or
for want of room. -/
theorem Poly.search_eq_error {p : Poly K} (substantial : Substantial p.coeffs)
    {options : SearchOptions R} {order : TableOrder K} {cause : Error}
    (failed : (p.search options order).outcome = .error cause) :
    cause = .unsupportedDegree (span p.coeffs) ∨
      cause = .fault .vanishingDivisor ∧ span p.coeffs = 4 ∧ options.usesClosedForm 4 = true ∨
      cause = .fault .countOverflow ∧ countLimit < p.degree := by
  have failedHere := failed
  rw [outcome_search, degree_ofCoeffs substantial] at failedHere
  split at failedHere
  · exact Or.inl (Except.error.inj failedHere).symm
  · obtain ⟨fault, rfl⟩ : ∃ fault, cause = .fault fault := by
      cases outcome : (p.findRoots options order).outcome with
      | ok report => simp [outcome] at failedHere
      | error fault => exact ⟨fault, by simpa [outcome, eq_comm] using failedHere⟩
    rcases search_eq_fault substantial failed with rfl | ⟨uses, lead, a, b, c, d, shape, inQuartic⟩
    · refine Or.inr (Or.inr ⟨rfl, ?_⟩)
      by_contra fits
      exact search_ne_countOverflow substantial (not_lt.mp fits) options order failed
    · obtain rfl := ClosedForm.quartic_eq_error inQuartic
      refine Or.inr (Or.inl ⟨rfl, ?_, uses⟩)
      rw [← degree_ofCoeffs substantial, Reduction.degree, shape]
      rfl

end Faults

/-- The contract of a search, in whatever order it walks a table. With `span` for the distance
between the first and the last coefficient that is not negligible: a span above four is refused
exactly if the iteration is ruled out, and nothing else is refused; otherwise there is a report,
unless the divisor of a quartic vanishes or the degree is beyond a counter. So no method is ever
asked for what it has no answer to: a closed form for a degree above four, here or in a nested call,
or an iteration on a constant or with a negligible leading coefficient. The report is by closed form
exactly if the span is zero, or at most four and a closed form is preferred or the only choice; then
it has no steps, has settled, and is the same for every tolerance and cap. The roots alone are those
of the report with the same preference. The order plays no part in any of these decisions, and none
at all unless a quartic is solved by closed form. -/
theorem search_contract {coeffs : List K} {p : Poly K} (accepted : Poly.ofList? coeffs = .ok p)
    (options : SearchOptions R) (order : TableOrder K) :
    (∀ degree, (p.search options order).outcome = .error (.unsupportedDegree degree) ↔
      degree = span coeffs ∧ options.allowIteration = false ∧ 4 < span coeffs) ∧
    (∀ cause, (p.search options order).outcome = .error cause →
      cause = .unsupportedDegree (span coeffs) ∨
        cause = .fault .vanishingDivisor ∧ span coeffs = 4 ∧
          (options.preferClosedForm = true ∨ options.allowIteration = false) ∨
        cause = .fault .countOverflow ∧ countLimit < p.degree) ∧
    (∀ report, (p.search options order).outcome = .ok report →
      (report.method = .closedForm ↔
        span coeffs = 0 ∨ span coeffs ≤ 4 ∧
          (options.preferClosedForm = true ∨ options.allowIteration = false)) ∧
      (report.method = .closedForm → report.iterations = 0 ∧ report.converged = true ∧
        ∀ (tolerance : R) (cap : Nat),
          p.search { options with tolerance, maxIterations := cap } order =
            p.search options order)) ∧
    (options.usesClosedForm (span coeffs) = true → (ofCoeffs coeffs).core.length ≤ 5) ∧
    (options.usesClosedForm (span coeffs) = false →
      ∃ lead next rest, (ofCoeffs coeffs).core = lead :: next :: rest ∧ isNegligible lead = false ∧
        ∀ (tolerance : R) (cap : Nat), Iteration.solve (ofCoeffs coeffs).core tolerance cap =
          Iteration.iterate lead (next :: rest) tolerance cap) ∧
    (∀ preferClosedForm, ((p.roots preferClosedForm order).mapError Error.fault).outcome =
      (p.search { preferClosedForm := preferClosedForm } order).outcome.map Report.roots) ∧
    (∀ (other : TableOrder K) (report otherReport : Report K),
      (p.search options order).outcome = .ok report →
        (p.search options other).outcome = .ok otherReport →
          report.SameCourse otherReport ∧ report.roots.total = otherReport.roots.total) ∧
    (options.usesClosedForm 4 = false ∨ span coeffs ≠ 4 →
      ∀ other : TableOrder K, p.search options order = p.search options other) := by
  obtain ⟨substantial, rfl⟩ := Poly.ofList?_eq_ok_iff.mp accepted
  refine ⟨Poly.search_eq_unsupportedDegree_iff substantial options order, ?_, ?_, ?_,
    exists_iteration substantial, fun prefer => p.outcome_roots prefer order, ?_, ?_⟩
  · intro cause failed
    rcases Poly.search_eq_error substantial failed with refused | ⟨vanished, four, uses⟩ | overflow
    · exact Or.inl refused
    · rcases (options.usesClosedForm_iff 4).mp uses with constant | ⟨_, chosen⟩
      · cases constant
      · exact Or.inr (Or.inl ⟨vanished, four, chosen⟩)
    · exact Or.inr (Or.inr overflow)
  · intro report finished
    obtain ⟨method, settled⟩ := Poly.method_search substantial finished
    refine ⟨method.trans (options.usesClosedForm_iff _), ?_⟩
    intro closedForm
    obtain ⟨noSteps, converged⟩ := settled closedForm
    have uses := method.mp closedForm
    rw [← degree_ofCoeffs substantial] at uses
    exact ⟨noSteps, converged,
      fun tolerance cap => Poly.search_eq_of_usesClosedForm uses tolerance cap order⟩
  · intro uses
    have degreeBound := SearchOptions.le_four_of_usesClosedForm uses
    rw [← degree_ofCoeffs substantial, Reduction.degree] at degreeBound
    omega
  · intro other report otherReport finished finishedToo
    refine ⟨Poly.sameCourse_of_sameCore rfl finished finishedToo, ?_⟩
    rw [Poly.total_search substantial finished, Poly.total_search substantial finishedToo]
  · intro notQuartic other
    rw [← degree_ofCoeffs substantial] at notQuartic
    exact Poly.search_eq_of_not_quartic substantial notQuartic order other

/-- The polynomial `x⁶ - x`, with a negligible coefficient in front. -/
def paddedQuintic : Poly (Complex Float) := ⟨[0, 1, 0, 0, 0, 0, -1, 0], by simp⟩

/-- Without iteration it is refused for the degree five of `x⁵ - 1`. -/
theorem search_contract_paddedQuintic :
    (paddedQuintic.search { allowIteration := false }).outcome =
      .error (.unsupportedDegree 5) := by
  have accepted : Poly.ofList? paddedQuintic.coeffs = .ok paddedQuintic :=
    Poly.ofList?_eq_ok_iff.mpr
      ⟨⟨1, by simp [paddedQuintic], StandardConstants.isNegligible_one⟩, rfl⟩
  have spanned : span paddedQuintic.coeffs = 5 := by decide +kernel
  apply ((search_contract accepted { allowIteration := false } .asStored).1 5).mpr
  rw [spanned]
  exact ⟨rfl, rfl, by decide⟩

end RootFinding
