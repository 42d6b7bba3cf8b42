import RootFinding.Proofs.Faults
import RootFinding.Proofs.Tolerance.Bounds
import RootFinding.Proofs.Tolerance.Quadratic

/-!
# When the divisor of a quartic vanishes

The divisor is the square root of `p + 2 y` for the root `y` of the resolvent for which that is
largest. If it vanishes, `p + 2 y` is small for every root that was found. A resolvent that is
reduced to a quadratic or a line, or that has a double root or three roots, does not give three
roots like that; it would be negligible itself. What is left are a resolvent of which nothing is
left, and one with a triple root. These give three equal roots, and the divisor vanishes exactly if
`p` is on the imaginary axis and close enough to zero.
-/

namespace RootFinding.ClosedForm

open Bag Coefficient Outcome Reduction Tolerant

variable {ε : ℝ}

namespace MonicCubic

/-- The cubic over the complex field. -/
def overField (cubic : MonicCubic (Complex (Tolerant ε))) : MonicCubic ℂ :=
  ⟨toField cubic.b, toField cubic.c, toField cubic.d⟩

variable (cubic : MonicCubic (Complex (Tolerant ε)))

/-- The first quantity of the formula is exact. -/
theorem toField_D₀ : toField cubic.D₀ = cubic.overField.D₀ := by
  simp only [D₀, overField, toField_sub, toField_mul, toField_mulReal_tenths,
    ExactArithmetic.mulReal_tenths]

/-- The second quantity of the formula is exact. -/
theorem toField_D₁ : toField cubic.D₁ = cubic.overField.D₁ := by
  simp only [D₁, overField, toField_add, toField_sub, toField_mul, toField_mulReal_tenths,
    ExactArithmetic.mulReal_tenths]

/-- The discriminant is exact. -/
theorem toField_discriminant : toField cubic.discriminant = cubic.overField.discriminant := by
  simp only [discriminant, toField_sub, toField_mul, toField_mulReal_tenths, toField_D₀, toField_D₁,
    ExactArithmetic.mulReal_tenths]

/-- The triple root is exact. -/
theorem toField_tripleRoot : toField cubic.tripleRoot = cubic.overField.tripleRoot := by
  simp only [tripleRoot, overField, toField_neg, toField_divReal_tenths,
    ExactArithmetic.divReal_tenths]

/-- The double root is exact. -/
theorem toField_doubleRoot : toField cubic.doubleRoot = cubic.overField.doubleRoot := by
  simp only [doubleRoot, toField_div, toField_sub, toField_mul, toField_mulReal_tenths, toField_D₀,
    ExactArithmetic.mulReal_tenths]
  rfl

/-- The simple root is exact. -/
theorem toField_simpleRoot : toField cubic.simpleRoot = cubic.overField.simpleRoot := by
  simp only [simpleRoot, toField_div, toField_sub, toField_mul, toField_mulReal_tenths, toField_D₀,
    ExactArithmetic.mulReal_tenths]
  rfl

/-- The root that a cube root leads to is exact. -/
theorem toField_rootOf (u : Complex (Tolerant ε)) :
    toField (cubic.rootOf u) = cubic.overField.rootOf (toField u) := by
  simp only [rootOf, toField_neg, toField_add, toField_div, toField_divReal_tenths, toField_D₀,
    ExactArithmetic.divReal_tenths]
  rfl

/-- The larger candidate is no smaller than the root of the discriminant. -/
theorem norm_sqrt_le_larger :
    ‖toField (sqrt cubic.discriminant)‖ ≤ ‖toField cubic.largerCandidate‖ := by
  apply norm_le_larger (x := toField cubic.D₁)
  unfold largerCandidate
  by_cases plusLarger : (abs (cubic.D₁ - sqrt cubic.discriminant) : Tolerant ε) ≤
      abs (cubic.D₁ + sqrt cubic.discriminant)
  · refine Or.inl ⟨?_, ?_⟩
    · rw [← toField_sub, ← toField_add, ← abs_eq, ← abs_eq]
      exact plusLarger
    · rw [if_pos plusLarger, toField_add]
  · refine Or.inr ⟨?_, ?_⟩
    · rw [← toField_sub, ← toField_add, ← abs_eq, ← abs_eq]
      exact le_of_not_ge (α := ℝ) plusLarger
    · rw [if_neg plusLarger, toField_sub]

end MonicCubic

/-- The last maximum is no smaller than any other value. -/
theorem le_of_last? {K : Type} {measure : K → Tolerant ε} {values : List K} {furthest value : K}
    (maximal : last? measure values = some furthest) (member : value ∈ values) :
    toReal (measure value) ≤ toReal (measure furthest) := by
  cases values with
  | nil => cases member
  | cons first rest =>
      rw [last?, Option.some.injEq] at maximal
      rw [← maximal]
      clear maximal
      induction rest using List.reverseRecOn with
      | nil => rw [List.mem_singleton.mp member, List.foldl_nil]
      | append_singleton rest final inductionHypothesis =>
          rw [List.foldl_append, List.foldl_cons, List.foldl_nil]
          rw [← List.cons_append, List.mem_append, List.mem_singleton] at member
          split
          · next smaller =>
            rcases member with before | rfl
            · exact inductionHypothesis before
            · exact le_of_lt (show toReal (measure value) < toReal (measure _) from smaller)
          · next larger =>
            rcases member with before | rfl
            · exact (inductionHypothesis before).trans
                (not_lt.mp (show ¬toReal (measure final) < toReal (measure _) from larger))
            · exact le_refl _

namespace DepressedQuartic

variable (quartic : DepressedQuartic (Complex (Tolerant ε)))

/-- The square of the divisor is exact. -/
theorem toField_divisorSquare (y : Complex (Tolerant ε)) :
    toField (quartic.divisorSquare y) = toField quartic.p + 2 * toField y := by
  simp only [divisorSquare, toField_add, toField_mulReal_tenths, Nat.cast_ofNat]
  ring

/-- The quadratic coefficient of the resolvent is exact. -/
theorem toField_resolvent_b : toField quartic.resolvent.b = 5 / 2 * toField quartic.p := by
  simp only [resolvent, toField_mulReal_tenths, Nat.cast_ofNat]
  ring

variable {quartic} {order : Bag.TableOrder (Complex (Tolerant ε))}

/-- If the divisor vanishes, it is small for all roots of the resolvent. -/
theorem Vanishes.small (positive : 0 < ε) (vanishes : quartic.Vanishes order)
    {values : List (Complex (Tolerant ε))}
    (solves : SolvesTo (solveCubic quartic.resolvent.coeffs) values) :
    ∀ y ∈ values, ‖toField quartic.p + 2 * toField y‖ < ε := by
  obtain ⟨_, resolventRoots, furthest, found, maximal, zero⟩ := vanishes
  obtain ⟨bag, finished, same⟩ := solves
  obtain rfl := Except.ok.inj (found.symm.trans finished)
  obtain ⟨noRealPart, nearAxis⟩ := (sqrt_eq_zero_iff positive _).mp zero
  have furthestSmall : ‖toField (quartic.divisorSquare furthest)‖ < ε := by
    rwa [Complex.norm_eq_sqrt_sq_add_sq, noRealPart, zero_pow two_ne_zero, zero_add,
      Real.sqrt_sq_eq_abs]
  intro y member
  have walked := (Bag.toList_arranged resolventRoots order).trans same
  have smaller := le_of_last? maximal (walked.mem_iff.mpr member)
  rw [← toField_divisorSquare]
  refine lt_of_le_of_lt ?_ furthestSmall
  rw [← abs_eq, ← abs_eq]
  exact smaller

/-- If the roots of the resolvent are all the same, the divisor vanishes exactly if it does
there. -/
theorem vanishes_iff_of_same (positive : 0 < ε) {y : Complex (Tolerant ε)}
    (solves : SolvesTo (solveCubic quartic.resolvent.coeffs) [y, y, y]) :
    quartic.Vanishes order ↔ isNegligible quartic.q = false ∧
      (toField quartic.p + 2 * toField y).re = 0 ∧
        |(toField quartic.p + 2 * toField y).im| < ε := by
  rw [← toField_divisorSquare, ← sqrt_eq_zero_iff positive]
  obtain ⟨bag, finished, same⟩ := solves
  have walked := (Bag.toList_arranged bag order).trans same
  constructor
  · rintro ⟨linearTerm, resolventRoots, furthest, found, maximal, zero⟩
    obtain rfl := Except.ok.inj (found.symm.trans finished)
    have isSame : furthest = y := by
      simpa using walked.mem_iff.mp (mem_of_last? maximal)
    rw [isSame] at zero
    exact ⟨linearTerm, zero⟩
  · rintro ⟨linearTerm, zero⟩
    have nonempty : (bag.arranged order).toList ≠ [] := by
      intro empty
      rw [empty] at walked
      simpa using walked.length_eq
    obtain ⟨furthest, maximal⟩ := exists_last? (fun y => abs (quartic.divisorSquare y)) nonempty
    have isSame : furthest = y := by
      simpa using walked.mem_iff.mp (mem_of_last? maximal)
    refine ⟨linearTerm, bag, furthest, finished, maximal, ?_⟩
    rw [isSame]
    exact zero

variable [StandardConstants (Complex (Tolerant ε))]

/-- A resolvent of which a line is left does not make the divisor vanish. -/
theorem not_vanishes_of_linear (positive : 0 < ε) (b : isNegligible quartic.resolvent.b = false)
    (c : isNegligible quartic.resolvent.c = true) (d : isNegligible quartic.resolvent.d = true) :
    ¬quartic.Vanishes order := by
  intro vanishes
  have small := vanishes.small positive (quartic.resolvent.solvesTo_of_linear b c d)
  have atRoot := small _ List.mem_cons_self
  have large := le_norm b
  have sum : toField quartic.p + 2 * toField (-quartic.resolvent.b) = -(4 * toField quartic.p) := by
    rw [toField_neg, toField_resolvent_b]
    ring
  rw [sum, norm_neg, norm_mul, Complex.norm_ofNat] at atRoot
  rw [toField_resolvent_b, norm_mul, norm_div, Complex.norm_ofNat, Complex.norm_ofNat] at large
  linarith

/-- A resolvent of which a quadratic is left does not make the divisor vanish. -/
theorem not_vanishes_of_quadratic (positive : 0 < ε) (small : ε ≤ 1)
    (c : isNegligible quartic.resolvent.c = false) (d : isNegligible quartic.resolvent.d = true) :
    ¬quartic.Vanishes order := by
  intro vanishes
  have nonzero := toField_eq_zero.not.mpr
    (firstRoot_one_ne_zero quartic.resolvent.b positive c)
  have allSmall := vanishes.small positive (quartic.resolvent.solvesTo_of_quadratic c d)
  generalize firstRoot 1 quartic.resolvent.b quartic.resolvent.c = first at nonzero allSmall
  have firstSmall := allSmall first (by simp)
  have secondSmall := allSmall (quartic.resolvent.c / (1 * first)) (by simp)
  have pSmall := allSmall 0 (by simp)
  rw [toField_zero, mul_zero, add_zero] at pSmall
  have half {y : ℂ} (atRoot : ‖toField quartic.p + 2 * y‖ < ε) : ‖y‖ < ε := by
    have bound := norm_sub_le (toField quartic.p + 2 * y) (toField quartic.p)
    rw [add_sub_cancel_left, norm_mul, Complex.norm_ofNat] at bound
    linarith
  have product : toField first * toField (quartic.resolvent.c / (1 * first)) =
      toField quartic.resolvent.c := by
    rw [toField_div, toField_mul, toField_one, one_mul]
    field_simp
  have large := le_norm c
  rw [← product, norm_mul] at large
  have bound := mul_lt_mul'' (half firstSmall) (half secondSmall) (norm_nonneg _) (norm_nonneg _)
  nlinarith

/-- A resolvent with a double root does not make the divisor vanish. -/
theorem not_vanishes_of_double (positive : 0 < ε) (small : ε ≤ 1 / 16)
    (d : isNegligible quartic.resolvent.d = false)
    (multiple : isNegligible quartic.resolvent.discriminant = true)
    (double : isNegligible quartic.resolvent.D₀ = false) : ¬quartic.Vanishes order := by
  intro vanishes
  have allSmall := vanishes.small positive (quartic.resolvent.solvesTo_of_kept d
    (quartic.resolvent.solvesTo_of_double multiple double))
  have doubleSmall := allSmall quartic.resolvent.doubleRoot (by simp)
  have simpleSmall := allSmall quartic.resolvent.simpleRoot (by simp)
  have largeD₀ := le_norm double
  have smallDiscriminant := norm_lt multiple
  rw [MonicCubic.toField_D₀] at largeD₀
  rw [MonicCubic.toField_discriminant] at smallDiscriminant
  rw [MonicCubic.toField_doubleRoot] at doubleSmall
  rw [MonicCubic.toField_simpleRoot] at simpleSmall
  have D₀Nonzero : quartic.resolvent.overField.D₀ ≠ 0 :=
    norm_pos_iff.mp (lt_of_lt_of_le positive largeD₀)
  exact absurd (quartic.resolvent.overField.norm_d_lt_of_doubleRoot positive small
    quartic.toField_resolvent_b D₀Nonzero smallDiscriminant doubleSmall simpleSmall)
    (not_lt.mpr (le_norm d))

/-- A resolvent with three roots does not make the divisor vanish. -/
theorem not_vanishes_of_simple (positive : 0 < ε) (small : ε ≤ 1 / 16)
    (d : isNegligible quartic.resolvent.d = false)
    (simple : isNegligible quartic.resolvent.discriminant = false) : ¬quartic.Vanishes order := by
  intro vanishes
  have allSmall := vanishes.small positive (quartic.resolvent.solvesTo_of_kept d
    (quartic.resolvent.solvesTo_of_simple simple))
  obtain ⟨C, isCubeRoot⟩ : ∃ C, C = cbrt (mulReal quartic.resolvent.largerCandidate 0.5) :=
    ⟨_, rfl⟩
  have cardano : quartic.resolvent.cardanoRoots =
      [C, omega * C, conj omega * C].map quartic.resolvent.rootOf := by
    rw [isCubeRoot]
    rfl
  have rootLarge := le_normSq_sqrt positive simple
  have largerLarge : ‖toField (sqrt quartic.resolvent.discriminant)‖ ≤
      ‖toField quartic.resolvent.largerCandidate‖ := quartic.resolvent.norm_sqrt_le_larger
  have cubed : ‖toField C‖ ^ 3 = ‖toField quartic.resolvent.largerCandidate‖ / 2 := by
    rw [isCubeRoot, norm_cbrt, toField_mulReal_tenths, norm_mul]
    norm_num
    ring
  have CSmall : ‖toField C‖ < 3 / 2 * ε := by
    rw [cardano] at allSmall
    have firstSmall := allSmall (quartic.resolvent.rootOf C) (by simp)
    have secondSmall := allSmall (quartic.resolvent.rootOf (omega * C)) (by simp)
    have thirdSmall := allSmall (quartic.resolvent.rootOf (conj omega * C)) (by simp)
    rw [MonicCubic.toField_rootOf] at firstSmall
    rw [MonicCubic.toField_rootOf, toField_mul, toField_omega] at secondSmall
    rw [MonicCubic.toField_rootOf, toField_mul, toField_conj, toField_omega] at thirdSmall
    exact quartic.resolvent.overField.norm_cubeRoot_lt firstSmall secondSmall thirdSmall
  -- The root of the discriminant is at most twice the cube of a small number.
  have rootSmall : ‖toField (sqrt quartic.resolvent.discriminant)‖ < ε := by
    have cubes : ‖toField C‖ ^ 3 ≤ (3 / 2 * ε) ^ 3 :=
      pow_le_pow_left₀ (norm_nonneg _) CSmall.le 3
    have tolerance : ε ^ 2 * ε ≤ (1 / 16) ^ 2 * ε := by gcongr
    linarith [largerLarge]
  have squares := pow_lt_pow_left₀ rootSmall (norm_nonneg _) two_ne_zero
  nlinarith

/-- If nothing is left of the resolvent, the divisor vanishes for `p` on the imaginary axis. -/
theorem vanishes_iff_of_allNegligible (positive : 0 < ε)
    (b : isNegligible quartic.resolvent.b = true) (c : isNegligible quartic.resolvent.c = true)
    (d : isNegligible quartic.resolvent.d = true) :
    quartic.Vanishes order ↔ isNegligible quartic.q = false ∧ (toField quartic.p).re = 0 := by
  have nearAxis : |(toField quartic.p).im| < ε := by
    obtain ⟨_, small⟩ := (isNegligible_iff _).mp b
    have imaginaryPart : (toField quartic.resolvent.b).im = 5 / 2 * (toField quartic.p).im := by
      rw [toField_resolvent_b]
      simp
    rw [imaginaryPart, abs_mul, abs_of_pos (by norm_num)] at small
    linarith [abs_nonneg (toField quartic.p).im]
  rw [vanishes_iff_of_same positive (quartic.resolvent.solvesTo_of_allNegligible b c d),
    toField_zero, mul_zero, add_zero]
  exact ⟨fun ⟨linearTerm, noRealPart, _⟩ => ⟨linearTerm, noRealPart⟩,
    fun ⟨linearTerm, noRealPart⟩ => ⟨linearTerm, noRealPart, nearAxis⟩⟩

/-- If the resolvent has a triple root, the divisor vanishes for `p` on the imaginary axis and close
to zero. -/
theorem vanishes_iff_of_triple (positive : 0 < ε) (d : isNegligible quartic.resolvent.d = false)
    (multiple : isNegligible quartic.resolvent.discriminant = true)
    (triple : isNegligible quartic.resolvent.D₀ = true) :
    quartic.Vanishes order ↔ isNegligible quartic.q = false ∧ (toField quartic.p).re = 0 ∧
      |(toField quartic.p).im| < 3 / 2 * ε := by
  have atRoot : toField quartic.p + 2 * toField quartic.resolvent.tripleRoot =
      ((-2 / 3 : ℝ) : ℂ) * toField quartic.p := by
    have b_eq : quartic.resolvent.overField.b = 5 / 2 * toField quartic.p :=
      quartic.toField_resolvent_b
    rw [MonicCubic.toField_tripleRoot, MonicCubic.tripleRoot_eq, b_eq]
    push_cast
    ring
  rw [vanishes_iff_of_same positive (quartic.resolvent.solvesTo_of_kept d
    (quartic.resolvent.solvesTo_of_triple multiple triple)), atRoot, Complex.re_ofReal_mul,
    Complex.im_ofReal_mul, abs_mul, abs_of_neg (by norm_num : (-2 / 3 : ℝ) < 0)]
  apply and_congr_right
  intro _
  apply and_congr
  · constructor
    · intro vanishes
      linarith
    · intro noRealPart
      rw [noRealPart, mul_zero]
  · constructor
    · intro near
      linarith
    · intro near
      linarith

/-- The divisor vanishes exactly for `p` on the imaginary axis where nothing is left of the
resolvent within the tolerance, or where the resolvent has a triple root within the tolerance and
`p` is close to zero. -/
theorem vanishes_iff (positive : 0 < ε) (small : ε ≤ 1 / 16) :
    quartic.Vanishes order ↔ isNegligible quartic.q = false ∧ (toField quartic.p).re = 0 ∧
      (isNegligible quartic.resolvent.b = true ∧ isNegligible quartic.resolvent.c = true ∧
          isNegligible quartic.resolvent.d = true ∨
        isNegligible quartic.resolvent.d = false ∧
          isNegligible quartic.resolvent.discriminant = true ∧
          isNegligible quartic.resolvent.D₀ = true ∧ |(toField quartic.p).im| < 3 / 2 * ε) := by
  cases d : isNegligible quartic.resolvent.d with
  | true =>
      cases c : isNegligible quartic.resolvent.c with
      | false => simp [not_vanishes_of_quadratic positive (by linarith) c d]
      | true =>
          cases b : isNegligible quartic.resolvent.b with
          | false => simp [not_vanishes_of_linear positive b c d]
          | true => simp [vanishes_iff_of_allNegligible positive b c d]
  | false =>
      cases multiple : isNegligible quartic.resolvent.discriminant with
      | false => simp [not_vanishes_of_simple positive small d multiple]
      | true =>
          cases triple : isNegligible quartic.resolvent.D₀ with
          | false => simp [not_vanishes_of_double positive small d multiple triple]
          | true => simp [vanishes_iff_of_triple positive d multiple triple]

end DepressedQuartic

end RootFinding.ClosedForm
