import RootFinding.Proofs.Expansion
import RootFinding.Proofs.Multiplicity
import RootFinding.Proofs.Tolerance.Reach

/-!
# Scaled polynomials

Every polynomial that is built from coefficients or from roots has a coefficient that is not
negligible. Scaling does not look at that: a factor may make any coefficient negligible, or bring
one back. There are as many roots as the degree that the negligible front leaves, so that scaling
keeps their number for all polynomials exactly if the factor keeps which coefficients are
negligible.
-/

namespace RootFinding

open Bag Coefficient Outcome Reduction

section Reduction

variable {K R : Type} [Coefficient K R]

/-- Coefficients that are not substantial are negligible. -/
theorem negligible_of_not_substantial {coeffs : List K} (none : ¬Substantial coeffs) :
    ∀ c ∈ coeffs, isNegligible c = true := by
  intro c member
  by_contra kept
  exact none ⟨c, member, Bool.eq_false_iff.mpr kept⟩

/-- Of negligible coefficients the last one stays. -/
theorem exists_trimFront_of_negligible {coeffs : List K} (nonempty : coeffs ≠ [])
    (negligible : ∀ c ∈ coeffs, isNegligible c = true) : ∃ c, trimFront coeffs = [c] := by
  induction coeffs using trimFront.induct with
  | case1 c next rest _ inductionHypothesis =>
      rw [List.forall_mem_cons] at negligible
      rw [trimFront, if_pos negligible.1]
      exact inductionHypothesis (List.cons_ne_nil _ _) negligible.2
  | case2 c next rest kept => exact absurd (negligible c List.mem_cons_self) kept
  | case3 coeffs short =>
      cases coeffs with
      | nil => exact absurd rfl nonempty
      | cons c rest =>
          cases rest with
          | nil => exact ⟨c, rfl⟩
          | cons next rest => exact absurd rfl (short c next rest)

/-- Reduction leaves one of many negligible coefficients, and no roots at the origin. -/
theorem ofCoeffs_of_negligible {coeffs : List K} (nonempty : coeffs ≠ [])
    (negligible : ∀ c ∈ coeffs, isNegligible c = true) :
    ∃ c, (ofCoeffs coeffs).core = [c] ∧ (ofCoeffs coeffs).zeros = 0 := by
  obtain ⟨c, trimmed⟩ := exists_trimFront_of_negligible nonempty negligible
  refine ⟨c, ?_, ?_⟩
  · rw [ofCoeffs, trimmed]
    rfl
  · rw [ofCoeffs, trimmed]
    rfl

end Reduction

section Search

variable {K R : Type} [Zero K] [One K] [Add K] [Sub K] [Neg K] [Mul K] [Div K] [BEq K]
  [Scalar R] [Coefficient K R]

namespace Poly

/-- The roots are those of the report. -/
theorem outcome_roots_eq_bind (p : Poly K) (preferClosedForm : Bool) (order : TableOrder K) :
    (p.roots preferClosedForm order).outcome =
      (p.findRoots { preferClosedForm } order).outcome >>= fun report => pure report.roots := by
  rw [roots, Traced.outcome_bind]
  rfl

/-- Of a polynomial with negligible coefficients only, the search finds no roots. -/
theorem outcome_roots_of_negligible {p : Poly K}
    (negligible : ∀ c ∈ p.coeffs, isNegligible c = true) (preferClosedForm : Bool)
    (order : TableOrder K) : (p.roots preferClosedForm order).outcome = .ok ∅ := by
  obtain ⟨c, core, zeros⟩ := ofCoeffs_of_negligible p.nonempty negligible
  rw [outcome_roots_eq_bind, outcome_findRoots, core, zeros]
  rfl

/-- Up to degree three the closed forms always have an answer. -/
theorem exists_roots {p : Poly K} (short : p.coeffs.length ≤ 4) (order : TableOrder K) :
    ∃ bag, (p.roots true order).outcome = .ok bag := by
  by_cases substantial : Substantial p.coeffs
  · have tight := tight_core substantial
    have parts := length_core_add_zeros substantial
    have trimmed := (List.dropWhile_suffix isNegligible (l := p.coeffs)).length_le
    have trimmedCore :=
      (List.dropWhile_suffix isNegligible (l := (ofCoeffs p.coeffs).core)).length_le
    have shortCore : (ofCoeffs p.coeffs).core.length ≤ 4 := by omega
    have yields : ClosedForm.Yields (ClosedForm.solve order (ofCoeffs p.coeffs).core)
        (((ofCoeffs p.coeffs).core.dropWhile isNegligible).length - 1) :=
      ClosedForm.yields_solveReduced tight.substantial shortCore
    obtain ⟨roots, solved, total⟩ := yields
    have fits : roots.total + (List.replicate (ofCoeffs p.coeffs).zeros (0 : K)).length ≤
        countLimit := by
      rw [total, List.length_replicate]
      exact ClosedForm.le_countLimit (by omega)
    obtain ⟨bag, inserted⟩ := exists_insertAll roots fits
    have closedForm : SearchOptions.usesClosedForm ({ preferClosedForm := true } : SearchOptions R)
        ((ofCoeffs p.coeffs).core.length - 1) = true := by
      have bounded : (ofCoeffs p.coeffs).core.length - 1 ≤ maxClosedFormDegree :=
        show _ ≤ 4 by omega
      simp [SearchOptions.usesClosedForm, bounded]
    refine ⟨bag, ?_⟩
    rw [outcome_roots_eq_bind, outcome_findRoots, reportOfCore, if_pos closedForm, solved]
    simp only [ok_bind, pure_eq_ok, Report.addZeros, inserted]
  · have negligible := negligible_of_not_substantial substantial
    exact ⟨∅, outcome_roots_of_negligible negligible true order⟩

variable [StandardConstants K]

/-- Whatever the coefficients are, there are as many roots as the degree that the negligible front
leaves. -/
theorem total_roots {p : Poly K} {preferClosedForm : Bool} {order : TableOrder K} {bag : Bag K}
    (finished : (p.roots preferClosedForm order).outcome = .ok bag) :
    bag.total = p.degree - (p.coeffs.takeWhile isNegligible).length := by
  by_cases substantial : Substantial p.coeffs
  · rw [outcome_roots_eq_bind, bind_eq_ok] at finished
    obtain ⟨report, found, same⟩ := finished
    obtain rfl := Except.ok.inj same
    have searched : (p.search { preferClosedForm } order).outcome = .ok report := by
      rw [outcome_search, found, Bool.not_true, Bool.and_false]
      rfl
    exact total_search substantial searched
  · have negligible := negligible_of_not_substantial substantial
    rw [outcome_roots_of_negligible negligible] at finished
    obtain rfl := Except.ok.inj finished
    rw [List.takeWhile_eq_self_iff.mpr negligible, total_empty, degree]
    omega

end Poly

end Search

section Factors

/-- Scaling multiplies every coefficient. -/
theorem Poly.coeffs_scale {K : Type} [Mul K] (p : Poly K) (k : K) :
    (p.scale k).coeffs = p.coeffs.map (· * k) := rfl

/-- Scaling keeps the degree. -/
theorem Poly.degree_scale {K : Type} [Mul K] (p : Poly K) (k : K) :
    (p.scale k).degree = p.degree := by
  rw [Poly.degree, Poly.degree, Poly.coeffs_scale, List.length_map]

variable {K R : Type} [Zero K] [One K] [Sub K] [Mul K] [Coefficient K R]

/-- The polynomials that are built from coefficients and from roots, and by scaling with certain
factors. -/
inductive Built (factor : K → Prop) : Poly K → Prop where
  | ofList {coeffs : List K} {p : Poly K} (accepted : Poly.ofList? coeffs = .ok p) : Built factor p
  | ofRoots (roots : List K) : Built factor (Poly.ofRoots roots)
  | scale {p : Poly K} {k : K} (built : Built factor p) (isFactor : factor k) :
      Built factor (p.scale k)

/-- A factor that makes no coefficient negligible that was not. -/
def KeepsSubstance (k : K) : Prop :=
  ∀ c : K, isNegligible c = false → isNegligible (c * k) = false

/-- A factor that changes nothing about which coefficients are negligible. -/
def KeepsNegligible (k : K) : Prop := ∀ c : K, isNegligible (c * k) = isNegligible c

/-- A list with a coefficient that is not negligible makes a polynomial. -/
theorem exists_built (factor : K → Prop) {coeffs : List K} (substantial : Substantial coeffs) :
    ∃ p : Poly K, p.coeffs = coeffs ∧ Built factor p :=
  ⟨⟨coeffs, substantial.ne_nil⟩, rfl, .ofList (Poly.ofList?_eq_ok_iff.mpr ⟨substantial, rfl⟩)⟩

variable [BEq K] [StandardConstants K]

/-- A factor keeps the polynomials that it is used on substantial if it does so for coefficients. -/
theorem substantial_of_built {factor : K → Prop} (keeps : ∀ k, factor k → KeepsSubstance k)
    {p : Poly K} (built : Built factor p) : Substantial p.coeffs := by
  induction built with
  | ofList accepted =>
      obtain ⟨substantial, same⟩ := Poly.ofList?_eq_ok_iff.mp accepted
      rwa [same]
  | ofRoots roots =>
      obtain ⟨rest, shape⟩ := Poly.exists_coeffs_ofRoots roots
      rw [shape]
      exact ClosedForm.substantial_one_cons rest
  | scale _ isFactor inductionHypothesis =>
      obtain ⟨c, member, kept⟩ := inductionHypothesis
      exact ⟨_, List.mem_map_of_mem member, keeps _ isFactor c kept⟩

/-- Every polynomial that is built is substantial exactly if each factor keeps coefficients so. -/
theorem substantial_built_iff (factor : K → Prop) :
    (∀ p, Built factor p → Substantial p.coeffs) ↔ ∀ k, factor k → KeepsSubstance k := by
  constructor
  · intro always k isFactor c kept
    obtain ⟨p, shape, built⟩ := exists_built factor ⟨c, List.mem_singleton_self c, kept⟩
    obtain ⟨scaled, member, keptToo⟩ := always _ (.scale built isFactor)
    have same : scaled = c * k := by simpa [Poly.coeffs_scale, shape] using member
    rwa [← same]
  · exact fun keeps p built => substantial_of_built keeps built

variable [Add K] [Neg K] [Div K] [Scalar R]

/-- A line has a root unless its slope is negligible. -/
theorem total_roots_line {p : Poly K} {slope constant : K} (shape : p.coeffs = [slope, constant])
    {preferClosedForm : Bool} {order : TableOrder K} {bag : Bag K}
    (finished : (p.roots preferClosedForm order).outcome = .ok bag) :
    bag.total = if isNegligible slope then 0 else 1 := by
  rw [Poly.total_roots finished, Poly.degree, shape]
  by_cases flat : isNegligible slope = true
  · rw [if_pos flat, List.takeWhile_cons_of_pos flat, List.length_cons]
    exact Nat.sub_eq_zero_of_le (Nat.le_add_left _ _)
  · rw [if_neg flat, List.takeWhile_cons_of_neg flat]
    rfl

/-- Scaling keeps the number of roots of all polynomials exactly if it keeps which coefficients are
negligible, in whatever orders tables are walked before and after. -/
theorem total_scale_iff (factor : K → Prop) (k : K) (order other : TableOrder K) :
    (∀ (p : Poly K) (preferClosedForm : Bool) (bag scaled : Bag K), Built factor p →
      (p.roots preferClosedForm order).outcome = .ok bag →
        ((p.scale k).roots preferClosedForm other).outcome = .ok scaled →
          scaled.total = bag.total) ↔
      KeepsNegligible k := by
  constructor
  · intro always c
    obtain ⟨p, shape, built⟩ := exists_built factor
      ⟨1, List.mem_cons_of_mem c (List.mem_singleton_self 1), StandardConstants.isNegligible_one⟩
    have scaledShape : (p.scale k).coeffs = [c * k, 1 * k] := by
      rw [Poly.coeffs_scale, shape]
      rfl
    obtain ⟨bag, found⟩ := Poly.exists_roots (p := p) (by simp [shape]) order
    obtain ⟨scaled, foundToo⟩ := Poly.exists_roots (p := p.scale k) (by simp [scaledShape]) other
    have same := always p true bag scaled built found foundToo
    rw [total_roots_line shape found, total_roots_line scaledShape foundToo] at same
    cases here : isNegligible c <;> cases there : isNegligible (c * k) <;>
      simp [here, there] at same ⊢
  · intro keeps p preferClosedForm bag scaled _ found foundToo
    have front : (p.scale k).coeffs.takeWhile isNegligible =
        (p.coeffs.takeWhile isNegligible).map (· * k) := by
      have same : (isNegligible ∘ fun c : K => c * k) = isNegligible := funext keeps
      rw [Poly.coeffs_scale, List.takeWhile_map, same]
    rw [Poly.total_roots found, Poly.total_roots foundToo, front, Poly.degree_scale,
      List.length_map]

end Factors

namespace Tolerant

variable {ε : ℝ}

/-- With exact numbers, a factor keeps coefficients from becoming negligible exactly if it is not
zero and its parts add up to no more than its norm squared. -/
theorem keepsSubstance_iff (positive : 0 < ε) (k : Complex (Tolerant ε)) :
    KeepsSubstance k ↔ k ≠ 0 ∧ k.taxicab ≤ k.normSq := by
  have parts : k.taxicab ≤ k.normSq ↔ taxi (toField k) ≤
      (toField k).re * (toField k).re + (toField k).im * (toField k).im := Iff.rfl
  have zero : toField k = 0 ↔ k = 0 := toField_injective.eq_iff' toField_zero
  rw [parts, Ne, ← zero]
  constructor
  · intro keeps
    have outside (z : ℂ) (kept : ε ≤ reach z) : ε ≤ reach (z * toField k) := by
      obtain ⟨c, rfl⟩ := exists_toField ε z
      rw [← toField_mul, ← kept_iff_reach]
      exact keeps c ((kept_iff_reach c).mpr kept)
    have nonzero : toField k ≠ 0 := by
      intro vanishes
      have stays := outside ε (by simp [reach, le_abs_self])
      rw [vanishes, mul_zero] at stays
      exact absurd positive (not_lt.mpr (by simpa [reach] using stays))
    refine ⟨nonzero, (taxi_inv_le_one_iff nonzero).mp (taxi_le_one_of_bounded positive ?_)⟩
    intro z inside
    by_contra leaves
    have stays := outside _ (not_lt.mp leaves)
    rw [inv_mul_cancel_right₀ nonzero] at stays
    exact absurd inside (not_lt.mpr stays)
  · rintro ⟨nonzero, small⟩ c kept
    rw [kept_iff_reach] at kept ⊢
    have bound := reach_mul_le (toField c * toField k) (toField k)⁻¹
    rw [mul_inv_cancel_right₀ nonzero] at bound
    have shrinks := mul_le_mul_of_nonneg_left ((taxi_inv_le_one_iff nonzero).mpr small)
      (reach_nonneg (toField c * toField k))
    rw [toField_mul]
    linarith

/-- With exact numbers, the factors that keep all numbers of roots are the four units. -/
theorem keepsNegligible_iff (positive : 0 < ε) (k : Complex (Tolerant ε)) :
    KeepsNegligible k ↔ k = 1 ∨ k = -1 ∨ k = Complex.I ∨ k = -Complex.I := by
  constructor
  · intro keeps
    have substance : KeepsSubstance k := fun c kept => (keeps c).trans kept
    obtain ⟨nonzero, large⟩ := (keepsSubstance_iff positive k).mp substance
    have small : taxi (toField k) ≤ 1 := by
      refine taxi_le_one_of_bounded positive fun z inside => ?_
      obtain ⟨c, rfl⟩ := exists_toField ε z
      rw [← toField_mul, ← isNegligible_iff_reach, keeps c, isNegligible_iff_reach]
      exact inside
    -- With `x + y` at most one and at most `x * x + y * y`, one of `x` and `y` is one.
    have positiveSum : 0 < taxi (toField k) := by
      refine lt_of_le_of_ne (add_nonneg (abs_nonneg _) (abs_nonneg _)) fun vanishes => nonzero ?_
      have parts := (add_eq_zero_iff_of_nonneg (abs_nonneg _) (abs_nonneg _)).mp vanishes.symm
      rw [abs_eq_zero, abs_eq_zero] at parts
      exact toField_injective (Complex.ext parts.1 parts.2)
    have squares : taxi (toField k) ≤
        |(toField k).re| * |(toField k).re| + |(toField k).im| * |(toField k).im| := by
      rw [abs_mul_abs_self, abs_mul_abs_self]
      exact large
    have isUnit (w : Complex (Tolerant ε)) (sameRe : (toField k).re = (toField w).re)
        (sameIm : (toField k).im = (toField w).im) : k = w :=
      toField_injective (Complex.ext sameRe sameIm)
    rcases eq_one_of_add_le (abs_nonneg _) (abs_nonneg _) small squares positiveSum with
      ⟨real, noImaginary⟩ | ⟨noReal, imaginary⟩
    · rw [abs_eq_zero] at noImaginary
      rcases eq_or_eq_neg_of_abs_eq real with plus | minus
      · exact Or.inl (isUnit 1 plus noImaginary)
      · exact Or.inr (Or.inl (isUnit (-1) minus (noImaginary.trans neg_zero.symm)))
    · rw [abs_eq_zero] at noReal
      rcases eq_or_eq_neg_of_abs_eq imaginary with plus | minus
      · exact Or.inr (Or.inr (Or.inl (isUnit Complex.I noReal plus)))
      · exact Or.inr (Or.inr (Or.inr (isUnit (-Complex.I) (noReal.trans neg_zero.symm) minus)))
  · intro isUnit c
    have same : reach (toField c * toField k) = reach (toField c) := by
      rcases isUnit with rfl | rfl | rfl | rfl
      · rw [toField_one, mul_one]
      · rw [toField_neg, toField_one, mul_neg_one, reach_neg]
      · exact reach_turn _ _ rfl rfl
      · rw [toField_neg, mul_neg, reach_neg]
        exact reach_turn _ _ rfl rfl
    rw [Bool.eq_iff_iff, isNegligible_iff_reach, isNegligible_iff_reach, toField_mul, same]

end Tolerant

section Contract

variable {R : Type} [RealFunctions R] [StandardConstants (Complex R)]

/-- Which factors keep what a polynomial promises. All that is built is substantial exactly if every
factor keeps coefficients from becoming negligible; whatever the coefficients are, there are as many
roots as the degree that the negligible front leaves; and a factor keeps that number for everything
that is built exactly if it keeps which coefficients are negligible, whatever the orders are in
which tables are walked. With exact numbers the first
are the factors, other than zero, whose parts add up to no more than the norm squared, and the
second are the four units. -/
theorem scaling_contract :
    (∀ factor : Complex R → Prop,
      (∀ p, Built factor p → Substantial p.coeffs) ↔ ∀ k, factor k → KeepsSubstance k) ∧
    (∀ (p : Poly (Complex R)) (preferClosedForm : Bool) (order : TableOrder (Complex R))
      (bag : Bag (Complex R)), (p.roots preferClosedForm order).outcome = .ok bag →
        bag.total = p.degree - (p.coeffs.takeWhile isNegligible).length) ∧
    (∀ (factor : Complex R → Prop) (k : Complex R) (order other : TableOrder (Complex R)),
      (∀ (p : Poly (Complex R)) (preferClosedForm : Bool) (bag scaled : Bag (Complex R)),
        Built factor p → (p.roots preferClosedForm order).outcome = .ok bag →
          ((p.scale k).roots preferClosedForm other).outcome = .ok scaled →
            scaled.total = bag.total) ↔
        KeepsNegligible k) ∧
    ∀ ε : ℝ, 0 < ε → ∀ k : Complex (Tolerant ε),
      (KeepsSubstance k ↔ k ≠ 0 ∧ k.taxicab ≤ k.normSq) ∧
      (KeepsNegligible k ↔ k = 1 ∨ k = -1 ∨ k = Complex.I ∨ k = -Complex.I) :=
  ⟨substantial_built_iff, fun _ _ _ _ => Poly.total_roots, total_scale_iff, fun _ positive k =>
    ⟨Tolerant.keepsSubstance_iff positive k, Tolerant.keepsNegligible_iff positive k⟩⟩

/-- A factor other than zero that is negligible itself does not keep polynomials substantial. -/
theorem scaling_contract_tiny :
    ¬∀ p : Poly (Complex Float), Built (fun k => (k == 0) = false) p → Substantial p.coeffs := by
  intro always
  have keeps := (scaling_contract.1 fun k : Complex Float => (k == 0) = false).mp always
    ⟨1e-20, 0⟩ (by decide +kernel) 1 (by decide +kernel)
  exact absurd keeps (by decide +kernel)

/-- The line `x - 2` has a root, and times a factor that is not zero it has none. -/
theorem scaling_loses_root :
    ∃ (p : Poly (Complex Float)) (k : Complex Float) (bag scaled : Bag (Complex Float)),
      p = Poly.ofRoots [⟨2, 0⟩] ∧ k = ⟨1e-20, 0⟩ ∧ (k == 0) = false ∧ Substantial p.coeffs ∧
      ¬Substantial (p.scale k).coeffs ∧ (p.roots true).outcome = .ok bag ∧ bag.total = 1 ∧
      ((p.scale k).roots true).outcome = .ok scaled ∧ scaled.total = 0 := by
  have line : ∃ (p : Poly (Complex Float)) (k slope constant : Complex Float),
      p = Poly.ofRoots [⟨2, 0⟩] ∧ k = ⟨1e-20, 0⟩ ∧ (k == 0) = false ∧
        p.coeffs = [slope, constant] ∧ isNegligible slope = false ∧
        isNegligible (slope * k) = true ∧ isNegligible (constant * k) = true :=
    ⟨_, _, _, _, rfl, rfl, by decide +kernel, rfl, by decide +kernel, by decide +kernel,
      by decide +kernel⟩
  obtain ⟨p, k, slope, constant, isLine, isTiny, nonzero, shape, kept, slopeGone,
    constantGone⟩ := line
  have scaledShape : (p.scale k).coeffs = [slope * k, constant * k] := by
    rw [Poly.coeffs_scale, shape]
    rfl
  obtain ⟨bag, found⟩ := Poly.exists_roots (p := p) (by simp [shape]) .asStored
  obtain ⟨scaled, foundToo⟩ :=
    Poly.exists_roots (p := p.scale k) (by simp [scaledShape]) .asStored
  refine ⟨p, k, bag, scaled, isLine, isTiny, nonzero, ?_, ?_, found, ?_, foundToo, ?_⟩
  · exact ⟨slope, by simp [shape], kept⟩
  · simp [substantial_iff_all, scaledShape, slopeGone, constantGone]
  · simp [total_roots_line shape found, kept]
  · simp [total_roots_line scaledShape foundToo, slopeGone]

end Contract

end RootFinding
