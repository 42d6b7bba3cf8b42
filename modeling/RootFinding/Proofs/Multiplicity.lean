import RootFinding.Proofs.Faults

/-!
# Total multiplicity

A search reports as many roots as the degree that the negligible front leaves, however the roots
were found and whatever values they have. The count is kept by every step on the way: a closed form
yields it at once, an iteration keeps the number of its estimates, and the zeros taken off at the
back come back as roots at the origin.
-/

namespace RootFinding

open Bag Coefficient Outcome Reduction

variable {K R : Type} [Zero K] [One K] [Add K] [Sub K] [Neg K] [Mul K] [Div K] [BEq K]
  [Scalar R] [Coefficient K R]

namespace ClosedForm

/-- The dispatch without quartics has as many roots as the degree after the negligible front. -/
theorem total_solveCubic {coeffs : List K} (substantial : Substantial coeffs) {bag : Bag K}
    (finished : (solveCubic coeffs).outcome = .ok bag) :
    bag.total = (coeffs.dropWhile isNegligible).length - 1 :=
  total_solveReduced (fun _ _ _ _ _ _ found => absurd found (by simp)) substantial finished

/-- Up to four coefficients the full dispatch does what the nested one does. -/
theorem outcome_solve_eq_solveCubic (order : TableOrder K) {coeffs : List K}
    (substantial : Substantial coeffs) (short : coeffs.length ≤ 4) :
    (solve order coeffs).outcome = (solveCubic coeffs).outcome := by
  have parts := length_core_add_zeros substantial
  have trimmed := (List.dropWhile_suffix isNegligible (l := coeffs)).length_le
  have shortCore : (ofCoeffs coeffs).core.length ≤ 4 := by omega
  rw [solve, solveCubic, outcome_solveReduced, outcome_solveReduced]
  congr 2
  generalize (ofCoeffs coeffs).core = core at shortCore ⊢
  rcases core with _ | ⟨_, _ | ⟨_, _ | ⟨_, _ | ⟨_, _ | ⟨_, rest⟩⟩⟩⟩⟩
  · rfl
  · rfl
  · rfl
  · rfl
  · rfl
  · simp only [List.length_cons] at shortCore
    omega

variable [StandardConstants K]

/-- A closed form of any degree has as many roots as the degree after the negligible front. -/
theorem total_solve {order : TableOrder K} {coeffs : List K} (substantial : Substantial coeffs)
    {bag : Bag K} (finished : (solve order coeffs).outcome = .ok bag) :
    bag.total = (coeffs.dropWhile isNegligible).length - 1 :=
  total_solveReduced (fun _ _ _ _ _ _ found => total_quartic found) substantial finished

/-- The cause of a closed form's failure is never a resolvent without roots. -/
theorem quartic_ne_rootlessResolvent (order : TableOrder K) (lead a b c d : K) :
    (quartic order lead a b c d).outcome ≠ .error .rootlessResolvent := by
  intro failed
  rcases quartic_outcome order lead a b c d with ⟨bag, finished, _⟩ | vanished
  · exact absurd (finished.symm.trans failed) (by simp)
  · exact absurd (vanished.symm.trans failed) (by simp)

end ClosedForm

variable [StandardConstants K]

/-- The report for a core has as many roots as the core has degrees. -/
theorem total_reportOfCore {core : List K} (tight : Tight core) {options : SearchOptions R}
    {order : TableOrder K} {report : Report K}
    (reported : reportOfCore core options order = .ok report) :
    report.roots.total = core.length - 1 := by
  unfold reportOfCore at reported
  split at reported
  · simp only [bind_eq_ok, pure_eq_ok, Except.ok.injEq] at reported
    obtain ⟨roots, solved, rfl⟩ := reported
    rw [ClosedForm.solve, ClosedForm.outcome_solveReduced_of_tight tight] at solved
    exact ClosedForm.total_solveCore (fun _ _ _ _ _ _ => ClosedForm.total_quartic) solved
  · next refuses =>
    have positive := SearchOptions.pos_of_not_usesClosedForm refuses
    obtain ⟨found, finished, length⟩ :=
      Iteration.exists_solve tight (by omega) options.tolerance options.maxIterations
    simp only [finished, ok_bind, bind_eq_ok, pure_eq_ok, Except.ok.injEq] at reported
    obtain ⟨roots, built, rfl⟩ := reported
    rw [← length]
    exact total_ofList built

/-- A report has a root for each degree of the core and one for each zero that was taken off. -/
theorem Poly.total_search_core {p : Poly K} (substantial : Substantial p.coeffs)
    {options : SearchOptions R} {order : TableOrder K} {report : Report K}
    (finished : (p.search options order).outcome = .ok report) :
    report.roots.total = (ofCoeffs p.coeffs).degree + (ofCoeffs p.coeffs).zeros := by
  obtain ⟨reportHere, reported, added⟩ := exists_reportOfCore finished
  obtain ⟨roots, inserted, rfl⟩ := Report.eq_of_addZeros added
  have rootsHere := total_reportOfCore (tight_core substantial) reported
  have rootsAll := total_insertAll inserted
  rw [List.length_replicate] at rootsAll
  rw [rootsAll, rootsHere, Reduction.degree]

/-- A report has as many roots as the degree after the negligible front. -/
theorem Poly.total_search {p : Poly K} (substantial : Substantial p.coeffs)
    {options : SearchOptions R} {order : TableOrder K} {report : Report K}
    (finished : (p.search options order).outcome = .ok report) :
    report.roots.total = p.degree - (p.coeffs.takeWhile isNegligible).length := by
  have corePositive := List.length_pos_of_ne_nil (tight_core substantial).ne_nil
  have trimmed := length_core_add_zeros substantial
  have parts := congrArg List.length
    (List.takeWhile_append_dropWhile (p := isNegligible) (l := p.coeffs))
  rw [List.length_append] at parts
  rw [total_search_core substantial finished, Reduction.degree, Poly.degree]
  omega

/-- No search ends at a resolvent without roots. -/
theorem Poly.search_ne_rootlessResolvent {p : Poly K} (substantial : Substantial p.coeffs)
    (options : SearchOptions R) (order : TableOrder K) :
    (p.search options order).outcome ≠ .error (.fault .rootlessResolvent) := by
  intro failed
  rcases search_eq_fault substantial failed with overflow | ⟨_, lead, a, b, c, d, _, quarticFailed⟩
  · cases overflow
  · exact ClosedForm.quartic_ne_rootlessResolvent order lead a b c d quarticFailed

/-- The total multiplicity is the degree after the negligible front: of every report, in whatever
order a table is walked, and of every closed form on the way, whose monic arguments always have an
answer. So the resolvent of a quartic has three roots, and no search ends for want of one. -/
theorem total_multiplicity_eq_degree {coeffs : List K} {p : Poly K}
    (accepted : Poly.ofList? coeffs = .ok p) (options : SearchOptions R) (order : TableOrder K) :
    (∀ report, (p.search options order).outcome = .ok report →
      report.roots.total = p.degree - (p.coeffs.takeWhile isNegligible).length ∧
        report.roots.size =
          if p.degree - (p.coeffs.takeWhile isNegligible).length ≤ countLimit then
            .ok (p.degree - (p.coeffs.takeWhile isNegligible).length)
          else .error .countOverflow) ∧
    (∀ (argument : List K) (bag : Bag K), Substantial argument →
      (ClosedForm.solve order argument).outcome = .ok bag ∨
          (ClosedForm.solveCubic argument).outcome = .ok bag →
        bag.total = (argument.dropWhile isNegligible).length - 1) ∧
    (∀ rest : List K, rest.length ≤ 3 → Substantial (1 :: rest) ∧
      (ClosedForm.solve order (1 :: rest)).outcome = (ClosedForm.solveCubic (1 :: rest)).outcome ∧
      ∃ bag, (ClosedForm.solveCubic (1 :: rest)).outcome = .ok bag ∧ bag.total = rest.length) ∧
    (∀ quartic : ClosedForm.DepressedQuartic K, ∃ resolventRoots,
      (ClosedForm.solveCubic quartic.resolvent.coeffs).outcome = .ok resolventRoots ∧
        resolventRoots.toList.length = 3) ∧
    (p.search options order).outcome ≠ .error (.fault .rootlessResolvent) := by
  have substantial : Substantial p.coeffs := by
    obtain ⟨given, same⟩ := Poly.ofList?_eq_ok_iff.mp accepted
    rwa [same]
  refine ⟨?_, ?_, ?_, ?_, Poly.search_ne_rootlessResolvent substantial options order⟩
  · intro report finished
    have total := Poly.total_search substantial finished
    refine ⟨total, ?_⟩
    rw [Bag.size_eq, total]
  · rintro argument bag argumentSubstantial (finished | finished)
    · exact ClosedForm.total_solve argumentSubstantial finished
    · exact ClosedForm.total_solveCubic argumentSubstantial finished
  · intro rest short
    have monic := ClosedForm.substantial_one_cons rest
    have sameDispatch := ClosedForm.outcome_solve_eq_solveCubic order monic
      (by rw [List.length_cons]; omega)
    exact ⟨monic, sameDispatch, ClosedForm.yields_solveCubic short⟩
  · intro quartic
    obtain ⟨resolventRoots, found, total⟩ := quartic.yields_resolvent
    exact ⟨resolventRoots, found, by rw [length_toList, total]⟩

/-- The line `x + 1` with a negligible coefficient on either side, which is `x² + x`. -/
def paddedLine : Poly (Complex Float) := ⟨[0, 1, 1, 0], by simp⟩

/-- The padded line has two roots, one for each degree after the negligible front. -/
theorem total_multiplicity_paddedLine :
    ∃ report, (paddedLine.search {}).outcome = .ok report ∧ report.roots.total = 2 := by
  have accepted : Poly.ofList? paddedLine.coeffs = .ok paddedLine :=
    Poly.ofList?_eq_ok_iff.mpr ⟨⟨1, by simp [paddedLine], StandardConstants.isNegligible_one⟩, rfl⟩
  have front : (paddedLine.coeffs.takeWhile isNegligible).length = 1 := by decide +kernel
  have reports : ((paddedLine.search {}).outcome.toOption).isSome = true := by decide +kernel
  have total := (total_multiplicity_eq_degree accepted {} .asStored).1
  cases outcome : (paddedLine.search {}).outcome with
  | error cause =>
      rw [outcome] at reports
      cases reports
  | ok report =>
      refine ⟨report, rfl, ?_⟩
      rw [(total report outcome).1, front]
      rfl

end RootFinding
