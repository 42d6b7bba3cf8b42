import RootFinding.Proofs.Exact.Lenient

/-!
# Which cubics keep their roots apart

A cubic is taken for one with a multiple root if its discriminant counts as zero. The discriminant
is of degree six in the differences of the roots and the test is absolute, so different roots are
merged where they are close together. `cubic_separates_iff` says exactly when: by the product of the
differences. A gap between the roots that is large enough keeps them apart.
-/

namespace RootFinding

open ClosedForm Coefficient Reduction

/-- Whether both parts of a complex number are within a tolerance. -/
noncomputable def bothPartsWithin (tolerance : ℝ) (z : ℂ) : Bool :=
  decide (|z.re| < tolerance ∧ |z.im| < tolerance)

/-- The complex numbers with exact roots, where a number counts as zero if both parts are within the
tolerance. -/
abbrev LenientComplex (tolerance : ℝ) : Type := Lenient ℂ (bothPartsWithin tolerance)

namespace LenientComplex

variable {tolerance : ℝ}

/-- The complex number itself. -/
def toComplex (z : LenientComplex tolerance) : ℂ := z

/-- A number counts as zero exactly if both of its parts are within the tolerance. -/
theorem isNegligible_iff (z : LenientComplex tolerance) :
    isNegligible z = true ↔ |(toComplex z).re| < tolerance ∧ |(toComplex z).im| < tolerance :=
  decide_eq_true_iff

/-- Opposite numbers count as zero together. -/
theorem isNegligible_neg (z : LenientComplex tolerance) : isNegligible (-z) = isNegligible z := by
  have negated : toComplex (-z) = -toComplex z := rfl
  rw [Bool.eq_iff_iff, isNegligible_iff, isNegligible_iff, negated, Complex.neg_re, Complex.neg_im,
    abs_neg, abs_neg]

/-- What does not count as zero is not zero. -/
theorem ne_zero (positive : 0 < tolerance) {z : LenientComplex tolerance}
    (kept : isNegligible z = false) : z ≠ 0 := by
  rintro rfl
  have negligible : isNegligible (0 : LenientComplex tolerance) = true := by
    have zero : toComplex (0 : LenientComplex tolerance) = 0 := rfl
    rw [isNegligible_iff, zero, Complex.zero_re, Complex.zero_im, abs_zero]
    exact ⟨positive, positive⟩
  rw [kept] at negligible
  cases negligible

/-- A number that counts as zero has less than twice the tolerance for a modulus. -/
theorem norm_lt {z : LenientComplex tolerance} (negligible : isNegligible z = true) :
    ‖toComplex z‖ < 2 * tolerance := by
  obtain ⟨smallRe, smallIm⟩ := (isNegligible_iff z).mp negligible
  have bound := Complex.norm_le_abs_re_add_abs_im (toComplex z)
  linarith

/-- A gap between any two of three numbers keeps the square of their differences from counting as
zero. -/
theorem isNegligible_differences {x₁ x₂ x₃ : LenientComplex tolerance} {gap : ℝ}
    (nonnegative : 0 ≤ gap) (gap₁₂ : gap ≤ abs (x₁ - x₂)) (gap₁₃ : gap ≤ abs (x₁ - x₃))
    (gap₂₃ : gap ≤ abs (x₂ - x₃)) (wide : 2 * tolerance ≤ 27 * gap ^ 6) :
    isNegligible (27 * ((x₁ - x₂) * (x₁ - x₃) * (x₂ - x₃)) ^ 2) = false := by
  rw [← Bool.not_eq_true]
  intro negligible
  have small := norm_lt negligible
  have modulus : ‖toComplex (27 * ((x₁ - x₂) * (x₁ - x₃) * (x₂ - x₃)) ^ 2)‖ =
      27 * (‖toComplex (x₁ - x₂)‖ * ‖toComplex (x₁ - x₃)‖ * ‖toComplex (x₂ - x₃)‖) ^ 2 := by
    have field : toComplex (27 * ((x₁ - x₂) * (x₁ - x₃) * (x₂ - x₃)) ^ 2) =
        27 * (toComplex (x₁ - x₂) * toComplex (x₁ - x₃) * toComplex (x₂ - x₃)) ^ 2 := rfl
    rw [field, norm_mul, norm_pow, norm_mul, norm_mul, Complex.norm_ofNat]
  have product : gap * gap * gap ≤
      ‖toComplex (x₁ - x₂)‖ * ‖toComplex (x₁ - x₃)‖ * ‖toComplex (x₂ - x₃)‖ := by
    have near : gap ≤ ‖toComplex (x₁ - x₂)‖ := gap₁₂
    have middle : gap ≤ ‖toComplex (x₁ - x₃)‖ := gap₁₃
    have far : gap ≤ ‖toComplex (x₂ - x₃)‖ := gap₂₃
    gcongr
  have squares := pow_le_pow_left₀ (by positivity) product 2
  have sixth : (gap * gap * gap) ^ 2 = gap ^ 6 := by ring
  rw [modulus] at small
  linarith

section Cubic

variable {a b c d x₁ x₂ x₃ : LenientComplex tolerance}

/-- A cubic with a leading coefficient and a constant term has nothing that reduction takes off. -/
theorem tight_cubic (lead : isNegligible a = false) (constant : isNegligible d = false) :
    Tight [a, b, c, d] where
  first := ⟨a, [b, c, d], rfl, lead⟩
  last := ⟨[a, b, c], d, rfl, constant⟩

/-- The closed form keeps three different roots apart exactly if the square of their differences
does not count as zero. -/
theorem exists_roots (order : Bag.TableOrder (LenientComplex tolerance)) (positive : 0 < tolerance)
    (lead : isNegligible a = false)
    (constant : isNegligible d = false)
    (factors : ∀ x, a * ((x - x₁) * (x - x₂) * (x - x₃)) = a * x ^ 3 + b * x ^ 2 + c * x + d)
    (distinct : [x₁, x₂, x₃].Nodup) :
    ∃ roots, (solve order [a, b, c, d]).outcome = .ok roots ∧
      (roots.toList.Nodup ↔
        isNegligible (27 * ((x₁ - x₂) * (x₁ - x₃) * (x₂ - x₃)) ^ 2) = false) ∧
      (roots.toList.Nodup → roots.toList.Perm [x₁, x₂, x₃]) := by
  have product := Lenient.horner_overLead (ne_zero positive lead) factors
  have differences := Lenient.discriminant_eq_differences product
  obtain ⟨values, solves, apartIff, areRoots⟩ := Lenient.exists_values product distinct
  obtain ⟨roots, finished, same⟩ := solvesTo_solve_of_cubic order
    (tight_cubic lead constant) solves
  rw [← same.nodup_iff] at apartIff areRoots
  refine ⟨roots, finished, ?_, fun apart => same.trans (areRoots apart)⟩
  rw [apartIff, differences, isNegligible_neg]

/-- A branch for a multiple root is taken exactly if the square of the differences counts as
zero. -/
theorem reports_multiple_iff (order : Bag.TableOrder (LenientComplex tolerance))
    (positive : 0 < tolerance) (lead : isNegligible a = false) (constant : isNegligible d = false)
    (factors : ∀ x, a * ((x - x₁) * (x - x₂) * (x - x₃)) = a * x ^ 3 + b * x ^ 2 + c * x + d) :
    .tripleRoot ∈ (solve order [a, b, c, d]).events ∨
        .doubleRoot ∈ (solve order [a, b, c, d]).events ↔
      isNegligible (27 * ((x₁ - x₂) * (x₁ - x₃) * (x₂ - x₃)) ^ 2) = true := by
  have product := Lenient.horner_overLead (ne_zero positive lead) factors
  have events : (solve order [a, b, c, d]).events =
      (MonicCubic.mk (overLead a b) (overLead a c) (overLead a d)).roots.events :=
    events_solveReduced_of_tight (tight_cubic lead constant)
  rw [events, MonicCubic.reports_multiple_iff, Lenient.discriminant_eq_differences product,
    isNegligible_neg]

/-- The closed form of a cubic without roots at the origin has three roots. -/
theorem total_eq_three {order : Bag.TableOrder (LenientComplex tolerance)}
    (lead : isNegligible a = false) (constant : isNegligible d = false)
    {roots : Bag (LenientComplex tolerance)}
    (finished : (solve order [a, b, c, d]).outcome = .ok roots) : roots.total = 3 := by
  rw [solve, outcome_solveReduced_of_tight (tight_cubic lead constant)] at finished
  exact (yields_cubic a b c d).total finished

end Cubic

end LenientComplex

open LenientComplex

/-- With exact operations and roots and a tolerance for what counts as zero, the closed form keeps
the three different roots of a cubic apart exactly if 27 times the squared product of their
differences does not count as zero. Then it gives these roots; otherwise it takes one of the
branches for a multiple root. A gap between the roots that is wide enough keeps them apart. -/
theorem cubic_separates_iff {tolerance : ℝ} (order : Bag.TableOrder (LenientComplex tolerance))
    (positive : 0 < tolerance) {a b c d x₁ x₂ x₃ : LenientComplex tolerance}
    (lead : isNegligible a = false) (constant : isNegligible d = false)
    (factors : ∀ x, a * ((x - x₁) * (x - x₂) * (x - x₃)) = a * x ^ 3 + b * x ^ 2 + c * x + d)
    (distinct : [x₁, x₂, x₃].Nodup) :
    ∃ roots, (solve order [a, b, c, d]).outcome = .ok roots ∧ roots.total = 3 ∧
      (roots.toList.Nodup ↔
        isNegligible (27 * ((x₁ - x₂) * (x₁ - x₃) * (x₂ - x₃)) ^ 2) = false) ∧
      (roots.toList.Nodup → roots.toList.Perm [x₁, x₂, x₃]) ∧
      (.tripleRoot ∈ (solve order [a, b, c, d]).events ∨
        .doubleRoot ∈ (solve order [a, b, c, d]).events ↔
        ¬roots.toList.Nodup) ∧
      ∀ gap : ℝ, 0 ≤ gap → gap ≤ abs (x₁ - x₂) → gap ≤ abs (x₁ - x₃) → gap ≤ abs (x₂ - x₃) →
        2 * tolerance ≤ 27 * gap ^ 6 → roots.toList.Nodup := by
  obtain ⟨roots, finished, apartIff, areRoots⟩ :=
    exists_roots order positive lead constant factors distinct
  refine ⟨roots, finished, total_eq_three lead constant finished, apartIff, areRoots, ?_, ?_⟩
  · rw [reports_multiple_iff order positive lead constant factors, apartIff, Bool.not_eq_false]
  · intro gap nonnegative gap₁₂ gap₁₃ gap₂₃ wide
    exact apartIff.mpr (isNegligible_differences nonnegative gap₁₂ gap₁₃ gap₂₃ wide)

section Spaced

/-- The real numbers among the complex ones. -/
noncomputable def lenientReal (tolerance : ℝ) : ℝ →+* LenientComplex tolerance :=
  Complex.ofRealHom

variable {tolerance : ℝ}

/-- A real number counts as zero exactly if it is within the tolerance. -/
theorem isNegligible_lenientReal (positive : 0 < tolerance) (x : ℝ) :
    isNegligible (lenientReal tolerance x) = true ↔ |x| < tolerance := by
  have field : toComplex (lenientReal tolerance x) = x := rfl
  rw [LenientComplex.isNegligible_iff, field, Complex.ofReal_re, Complex.ofReal_im, abs_zero]
  exact and_iff_left positive

/-- A real number that reaches the tolerance does not count as zero. -/
theorem lenientReal_kept (positive : 0 < tolerance) {x : ℝ} (large : tolerance ≤ |x|) :
    isNegligible (lenientReal tolerance x) = false := by
  rw [← Bool.not_eq_true, isNegligible_lenientReal positive]
  exact not_lt.mpr large

/-- The polynomial `(x - gap) (x - 2 gap) (x - 3 gap)`. -/
noncomputable def spacedCubic (tolerance gap : ℝ) : List (LenientComplex tolerance) :=
  [1, -((6 : ℕ) * gap), (11 : ℕ) * gap ^ 2, -((6 : ℕ) * gap ^ 3)].map (lenientReal tolerance)

/-- The roots of `(x - gap) (x - 2 gap) (x - 3 gap)`. -/
noncomputable def spacedRoots (tolerance gap : ℝ) : List (LenientComplex tolerance) :=
  [gap, (2 : ℕ) * gap, (3 : ℕ) * gap].map (lenientReal tolerance)

/-- The coefficients are those of the product. -/
theorem spacedCubic_factors (gap : ℝ) (x : LenientComplex tolerance) :
    lenientReal tolerance 1 * ((x - lenientReal tolerance gap) *
        (x - lenientReal tolerance ((2 : ℕ) * gap)) *
        (x - lenientReal tolerance ((3 : ℕ) * gap))) =
      lenientReal tolerance 1 * x ^ 3 + lenientReal tolerance (-((6 : ℕ) * gap)) * x ^ 2 +
        lenientReal tolerance ((11 : ℕ) * gap ^ 2) * x +
          lenientReal tolerance (-((6 : ℕ) * gap ^ 3)) := by
  simp only [map_mul, map_pow, map_neg, map_one, map_ofNat, Nat.cast_ofNat]
  ring

/-- The cubic is the product over its roots. -/
theorem horner_spacedCubic (gap : ℝ) (x : LenientComplex tolerance) :
    Poly.horner (spacedCubic tolerance gap) x = rootProduct (spacedRoots tolerance gap) x := by
  have factors := spacedCubic_factors gap x
  simp only [spacedCubic, spacedRoots, Poly.horner, List.map_cons, List.map_nil,
    List.foldl_cons, List.foldl_nil, rootProduct_cons, rootProduct_nil]
  rw [map_one, one_mul] at factors
  rw [map_one]
  linear_combination -factors

/-- The three roots are different unless the gap is zero. -/
theorem spacedRoots_nodup {gap : ℝ} (nonzero : gap ≠ 0) : (spacedRoots tolerance gap).Nodup := by
  apply List.Nodup.map (lenientReal tolerance).injective
  rw [Nat.cast_ofNat, Nat.cast_ofNat]
  have apart₁₂ : gap ≠ 2 * gap := fun same => nonzero (by linarith)
  have apart₁₃ : gap ≠ 3 * gap := fun same => nonzero (by linarith)
  have apart₂₃ : 2 * gap ≠ 3 * gap := fun same => nonzero (by linarith)
  simp [apart₁₂, apart₁₃, apart₂₃]

/-- The square of the differences of the roots, times 27. -/
theorem spacedRoots_differences (gap : ℝ) :
    27 * ((lenientReal tolerance gap - lenientReal tolerance ((2 : ℕ) * gap)) *
        (lenientReal tolerance gap - lenientReal tolerance ((3 : ℕ) * gap)) *
        (lenientReal tolerance ((2 : ℕ) * gap) - lenientReal tolerance ((3 : ℕ) * gap))) ^ 2 =
      lenientReal tolerance (108 * gap ^ 6) := by
  simp only [map_mul, map_pow, map_ofNat, Nat.cast_ofNat]
  ring

/-- Within a tolerance of `2⁻⁵²` the roots one, two and three are kept apart. -/
theorem cubic_separates_integers : ∃ roots,
    (solve .asStored (spacedCubic (1 / 2 ^ 52) 1)).outcome = .ok roots ∧
      roots.toList.Perm (spacedRoots (1 / 2 ^ 52) 1) := by
  have positive : (0 : ℝ) < 1 / 2 ^ 52 := by norm_num
  obtain ⟨roots, finished, _, apartIff, areRoots, _⟩ := cubic_separates_iff .asStored positive
    (lenientReal_kept positive (by norm_num)) (lenientReal_kept positive (by norm_num))
    (spacedCubic_factors 1) (spacedRoots_nodup one_ne_zero)
  refine ⟨roots, finished, areRoots (apartIff.mpr ?_)⟩
  rw [spacedRoots_differences]
  exact lenientReal_kept positive (by norm_num)

/-- Within a tolerance of `2⁻⁵²` the roots `2⁻¹⁰`, `2 · 2⁻¹⁰` and `3 · 2⁻¹⁰` are not kept apart,
although they are different, and the coefficients at both ends do not count as zero. -/
theorem cubic_merges_spaced :
    (spacedRoots (1 / 2 ^ 52) (1 / 2 ^ 10)).Nodup ∧
      (∀ x, Poly.horner (spacedCubic (1 / 2 ^ 52) (1 / 2 ^ 10)) x =
        rootProduct (spacedRoots (1 / 2 ^ 52) (1 / 2 ^ 10)) x) ∧
      Tight (spacedCubic (1 / 2 ^ 52) (1 / 2 ^ 10)) ∧
      ∃ roots, (solve .asStored (spacedCubic (1 / 2 ^ 52) (1 / 2 ^ 10))).outcome = .ok roots ∧
        ¬roots.toList.Nodup := by
  have positive : (0 : ℝ) < 1 / 2 ^ 52 := by norm_num
  have lead : isNegligible (lenientReal (1 / 2 ^ 52) 1) = false :=
    lenientReal_kept positive (by norm_num)
  have constant : isNegligible (lenientReal (1 / 2 ^ 52) (-((6 : ℕ) * (1 / 2 ^ 10) ^ 3))) = false :=
    lenientReal_kept positive (by norm_num)
  have distinct : (spacedRoots (1 / 2 ^ 52) (1 / 2 ^ 10)).Nodup := spacedRoots_nodup (by norm_num)
  obtain ⟨roots, finished, apartIff, _⟩ :=
    exists_roots .asStored positive lead constant (spacedCubic_factors (1 / 2 ^ 10)) distinct
  refine ⟨distinct, horner_spacedCubic _, tight_cubic lead constant, roots, finished, ?_⟩
  rw [apartIff, spacedRoots_differences, Bool.not_eq_false, isNegligible_lenientReal positive]
  norm_num

end Spaced

end RootFinding
