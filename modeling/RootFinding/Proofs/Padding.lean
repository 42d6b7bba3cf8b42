import RootFinding.Proofs.Bag.Counts
import RootFinding.Proofs.Multiplicity

/-!
# Padding a polynomial

Negligible coefficients around a polynomial change nothing about a search but the number of roots
at the origin. The reduction of a padded list has the same core, so the same method answers in the
same way; the zeros at the back join those of the polynomial, and they are inserted after the other
roots, one by one, which is the same as inserting all of them at once.

Reducing a core takes nothing off. So although a search reduces the coefficients to choose a
method, again to find the roots, and once more in a closed form, each zero is counted once.

The closed form of a quartic walks a table, and its roots may depend on the order. So the law is
about every order: what can come up for the padded polynomial is what can come up for the
polynomial. Two searches that walk in different orders still take the same course, and find as many
roots.
-/

namespace RootFinding

open Bag Coefficient Outcome Reduction

section Zeros

variable {K : Type} [Zero K] [BEq K]

/-- Zeros are added to a report one summand at a time. -/
theorem Report.addZeros_add (report : Report K) (m n : Nat) :
    report.addZeros (m + n) = report.addZeros m >>= fun middle => middle.addZeros n := by
  simp only [addZeros, ← List.replicate_append_replicate, insertAll_append, bind_assoc, pure_bind]

/-- Zeros can be added to a report while its total fits a counter. -/
theorem Report.exists_addZeros (report : Report K) {n : Nat}
    (fits : report.roots.total + n ≤ countLimit) :
    ∃ extended, report.addZeros n = .ok extended := by
  have fitsList : report.roots.total + (List.replicate n (0 : K)).length ≤ countLimit := by
    rwa [List.length_replicate]
  obtain ⟨roots, inserted⟩ := exists_insertAll report.roots fitsList
  exact ⟨{ report with roots }, by rw [addZeros, inserted]; rfl⟩

/-- A report that differs from another by `n` further roots at the origin and by nothing else. -/
structure Report.Extends (extended report : Report K) (n : Nat) : Prop where
  course : extended.SameCourse report
  roots : report.roots.insertMany 0 n = .ok extended.roots
  total : extended.roots.total = report.roots.total + n
  countZero : extended.roots.count 0 = report.roots.count 0 + n
  /-- No value that is apart from zero changes its count. -/
  countOther : ∀ other : K, ((0 : K) == other) = false →
    (∀ stored, (stored == other) = true → (stored == (0 : K)) = false) →
      extended.roots.count other = report.roots.count other

/-- Adding zeros to a report adds roots at the origin and nothing else. -/
theorem Report.extends_of_addZeros (reflexive : ((0 : K) == 0) = true) {report extended : Report K}
    {n : Nat} (added : report.addZeros n = .ok extended) : extended.Extends report n := by
  obtain ⟨roots, inserted, rfl⟩ := eq_of_addZeros added
  rw [insertAll_replicate reflexive] at inserted
  constructor
  case course => exact ⟨rfl, rfl, rfl⟩
  case roots => exact inserted
  case total => exact total_insertMany inserted
  case countZero => exact count_insertMany_self reflexive inserted
  case countOther =>
    intro other unequal apart
    exact count_insertMany_other apart unequal inserted

end Zeros

variable {K R : Type} [Zero K] [One K] [Add K] [Sub K] [Neg K] [Mul K] [Div K] [BEq K]
  [Scalar R] [Coefficient K R]

/-- What a search for a padded polynomial comes to: what it comes to for the polynomial, with the
zeros at the back added to the report. -/
theorem Poly.outcome_search_padded {front back : List K} {p padded : Poly K}
    (frontNegligible : ∀ c ∈ front, isNegligible c) (substantial : Substantial p.coeffs)
    (backNegligible : ∀ c ∈ back, isNegligible c)
    (around : padded.coeffs = front ++ p.coeffs ++ back) (options : SearchOptions R)
    (order : TableOrder K) :
    (padded.search options order).outcome =
      ((p.search options order).outcome >>= fun report =>
        (report.addZeros back.length).mapError .fault) := by
  have ⟨sameCore, moreZeros⟩ := ofCoeffs_padded frontNegligible substantial backNegligible
  rw [← around] at sameCore moreZeros
  rw [outcome_search, outcome_search, outcome_findRoots, outcome_findRoots, Reduction.degree,
    Reduction.degree, sameCore, moreZeros]
  split
  · rfl
  · cases reportOfCore (ofCoeffs p.coeffs).core options order with
    | error cause => rfl
    | ok report =>
        rw [ok_bind, ok_bind, Report.addZeros_add]
        cases report.addZeros (ofCoeffs p.coeffs).zeros with
        | error cause => rfl
        | ok middle => rfl

/-- Searches for a polynomial and for a padded one take the same course and find the same number of
roots but for the zeros at the back, even if they walk their tables in different orders. -/
theorem Poly.sameCourse_padded [StandardConstants K] {front back : List K} {p padded : Poly K}
    (frontNegligible : ∀ c ∈ front, isNegligible c) (substantial : Substantial p.coeffs)
    (backNegligible : ∀ c ∈ back, isNegligible c)
    (around : padded.coeffs = front ++ p.coeffs ++ back) {options : SearchOptions R}
    {order other : TableOrder K} {extended report : Report K}
    (finished : (padded.search options order).outcome = .ok extended)
    (reported : (p.search options other).outcome = .ok report) :
    extended.SameCourse report ∧ extended.roots.total = report.roots.total + back.length := by
  have ⟨sameCore, moreZeros⟩ := ofCoeffs_padded frontNegligible substantial backNegligible
  rw [← around] at sameCore moreZeros
  have paddedSubstantial : Substantial padded.coeffs := around ▸ substantial.append front back
  refine ⟨sameCourse_of_sameCore sameCore finished reported, ?_⟩
  rw [total_search_core paddedSubstantial finished, total_search_core substantial reported,
    Reduction.degree, Reduction.degree, sameCore, moreZeros, Nat.add_assoc]

/-- The reduction law. Negligible coefficients around a polynomial leave what a search comes to as
it is, but for one more root at the origin for each coefficient at the back: a refusal stays the
same refusal, and in every order in which a table may be walked a fault stays the same fault, and a
report is extended by the zeros, as long as a counter can count them. In two different orders the
course and the number of roots are still the same. Reducing what has been reduced finds no zero
again. -/
theorem search_padded [StandardConstants K] {front coeffs back : List K}
    (frontNegligible : ∀ c ∈ front, isNegligible c) {p : Poly K}
    (accepted : Poly.ofList? coeffs = .ok p) (backNegligible : ∀ c ∈ back, isNegligible c)
    (options : SearchOptions R) :
    ∃ padded, Poly.ofList? (front ++ coeffs ++ back) = .ok padded ∧
      (∀ (order other : TableOrder K) (degree : Nat),
        (padded.search options order).outcome = .error (.unsupportedDegree degree) ↔
          (p.search options other).outcome = .error (.unsupportedDegree degree)) ∧
      (∀ (order : TableOrder K) (cause : Error), (p.search options order).outcome = .error cause →
        (padded.search options order).outcome = .error cause) ∧
      (∀ (order : TableOrder K) (report : Report K),
        (p.search options order).outcome = .ok report →
          report.roots.total + back.length ≤ countLimit →
            ∃ extended, (padded.search options order).outcome = .ok extended) ∧
      (∀ (order : TableOrder K) (extended : Report K),
        (padded.search options order).outcome = .ok extended →
          ∃ report, (p.search options order).outcome = .ok report ∧
            extended.Extends report back.length) ∧
      (∀ (order other : TableOrder K) (extended report : Report K),
        (padded.search options order).outcome = .ok extended →
          (p.search options other).outcome = .ok report →
            extended.SameCourse report ∧
              extended.roots.total = report.roots.total + back.length) ∧
      (ofCoeffs padded.coeffs).core = (ofCoeffs p.coeffs).core ∧
      ofCoeffs (ofCoeffs p.coeffs).core = ⟨[], (ofCoeffs p.coeffs).core, 0⟩ := by
  obtain ⟨substantial, rfl⟩ := Poly.ofList?_eq_ok_iff.mp accepted
  have paddedSubstantial := substantial.append front back
  obtain ⟨padded, around⟩ : ∃ padded : Poly K, padded.coeffs = front ++ p.coeffs ++ back :=
    ⟨⟨front ++ p.coeffs ++ back, paddedSubstantial.ne_nil⟩, rfl⟩
  refine ⟨padded, Poly.ofList?_eq_ok_iff.mpr ⟨paddedSubstantial, around⟩, ?_⟩
  have sameCore := (ofCoeffs_padded frontNegligible substantial backNegligible).1
  rw [← around] at sameCore
  have padding := Poly.outcome_search_padded frontNegligible substantial backNegligible
    around options
  refine ⟨?_, ?_, ?_, ?_, ?_, sameCore, ofCoeffs_core substantial⟩
  · intro order other degree
    rw [Poly.search_eq_unsupportedDegree_iff_core, Poly.search_eq_unsupportedDegree_iff_core,
      Reduction.degree, Reduction.degree, sameCore]
  · intro order cause failed
    rw [padding, failed, error_bind]
  · intro order report finished fits
    obtain ⟨extended, added⟩ := report.exists_addZeros fits
    exact ⟨extended, by rw [padding, finished, ok_bind, added, mapError_ok]⟩
  · intro order extended finished
    rw [padding, bind_eq_ok] at finished
    obtain ⟨report, reported, added⟩ := finished
    rw [mapError_eq_ok] at added
    exact ⟨report, reported,
      Report.extends_of_addZeros (StandardConstants.zero_beq_zero R) added⟩
  · intro order other extended report finished reported
    exact Poly.sameCourse_padded frontNegligible substantial backNegligible around finished reported

/-- The line `x + 1`. -/
def line : Poly (Complex Float) := ⟨[1, 1], by simp⟩

/-- With a negligible coefficient on either side the line has one root at the origin more. -/
theorem search_padded_line :
    ∃ padded extended report, Poly.ofList? ([0] ++ line.coeffs ++ [0]) = .ok padded ∧
      (padded.search {}).outcome = .ok extended ∧ (line.search {}).outcome = .ok report ∧
        extended.roots.count 0 = report.roots.count 0 + 1 := by
  have zeroNegligible : ∀ c ∈ [(0 : Complex Float)], isNegligible c = true := by
    intro c member
    rw [List.mem_singleton.mp member]
    decide +kernel
  have accepted : Poly.ofList? line.coeffs = .ok line :=
    Poly.ofList?_eq_ok_iff.mpr ⟨⟨1, by simp [line], StandardConstants.isNegligible_one⟩, rfl⟩
  obtain ⟨padded, acceptedPadded, _, _, stillReports, sameButZeros, _⟩ :=
    search_padded zeroNegligible accepted zeroNegligible {}
  have reports : ((line.search {}).outcome.toOption.map fun report => report.roots.total) =
      some 1 := by decide +kernel
  cases outcome : (line.search {}).outcome with
  | error cause =>
      rw [outcome] at reports
      cases reports
  | ok report =>
      rw [outcome] at reports
      have single : report.roots.total = 1 := Option.some.inj reports
      obtain ⟨extended, finished⟩ := stillReports .asStored report outcome (by rw [single]; decide)
      obtain ⟨sameReport, reported, zeros⟩ := sameButZeros .asStored extended finished
      obtain rfl := Except.ok.inj (outcome.symm.trans reported)
      exact ⟨padded, extended, report, acceptedPadded, finished, rfl, zeros.countZero⟩

end RootFinding
