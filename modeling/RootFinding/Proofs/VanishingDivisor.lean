import RootFinding.Proofs.Tolerance.Vanishing

/-!
# Searches that end at a vanishing divisor

Ferrari's method asserts that its divisor is not zero, since the depressed quartic has a linear
term. Without any tolerance that is so. But the test of the linear term `q` and the reduction of the
resolvent, which contains `q² / 8`, use the same tolerance: a linear term between the tolerance and
its square root passes the test and does not show in the resolvent. Then the search fails for some
polynomials close to a fourth power, and these are the only ones for which it does.
-/

namespace RootFinding

open ClosedForm Coefficient Reduction Tolerant

/-- The exact condition under which a search ends at a vanishing divisor. In any arithmetic, it
comes to a depressed quartic with a linear term for which the root of the resolvent that is chosen
has a divisor of zero. In exact numbers with a tolerance, the real part of `p` is zero, and either
nothing is left of the resolvent within the tolerance, or it has a triple root within the tolerance
and `p` is close to zero; the order in which the roots of the resolvent are walked plays no part
there. -/
theorem search_vanishes_iff {K R : Type} [Zero K] [One K] [Add K] [Sub K] [Neg K] [Mul K] [Div K]
    [BEq K] [Scalar R] [Coefficient K R] [StandardConstants K] {coeffs : List K} {p : Poly K}
    (accepted : Poly.ofList? coeffs = .ok p) (options : SearchOptions R)
    (order : Bag.TableOrder K) :
    ((p.search options order).outcome = .error (.fault .vanishingDivisor) ↔
      ∃ quartic, p.DepressesTo options quartic ∧ isNegligible quartic.q = false ∧
        ∃ resolventRoots y, (solveCubic quartic.resolvent.coeffs).outcome = .ok resolventRoots ∧
          last? (fun y => abs (quartic.divisorSquare y)) (resolventRoots.arranged order).toList =
              some y ∧
            (sqrt (quartic.divisorSquare y) == 0) = true) ∧
    ∀ {tolerance : ℝ}, 0 < tolerance → tolerance ≤ 1 / 16 →
      ∀ {coeffs : List (Complex (Tolerant tolerance))} {p : Poly (Complex (Tolerant tolerance))},
        Poly.ofList? coeffs = .ok p → ∀ (options : SearchOptions (Tolerant tolerance))
          (order : Bag.TableOrder (Complex (Tolerant tolerance))),
          ((p.search options order).outcome = .error (.fault .vanishingDivisor) ↔
            ∃ quartic, p.DepressesTo options quartic ∧ isNegligible quartic.q = false ∧
              (toField quartic.p).re = 0 ∧
                (isNegligible quartic.resolvent.b = true ∧ isNegligible quartic.resolvent.c = true ∧
                    isNegligible quartic.resolvent.d = true ∨
                  isNegligible quartic.resolvent.d = false ∧
                    isNegligible quartic.resolvent.discriminant = true ∧
                    isNegligible quartic.resolvent.D₀ = true ∧
                    |(toField quartic.p).im| < 3 / 2 * tolerance)) := by
  constructor
  · obtain ⟨substantial, rfl⟩ := Poly.ofList?_eq_ok_iff.mp accepted
    exact Poly.search_eq_vanishingDivisor_iff substantial options order
  · intro tolerance positive small coeffs p acceptedExact options order
    obtain ⟨substantial, rfl⟩ := Poly.ofList?_eq_ok_iff.mp acceptedExact
    have : StandardConstants (Complex (Tolerant tolerance)) := standardConstants (by linarith)
    rw [Poly.search_eq_vanishingDivisor_iff substantial options]
    apply exists_congr
    intro quartic
    apply and_congr_right
    intro _
    exact DepressedQuartic.vanishes_iff positive small

/-- A real number among the complex ones with a tolerance. -/
noncomputable def exact (tolerance x : ℝ) : Complex (Tolerant tolerance) :=
  Complex.ofReal (R := Tolerant tolerance) x

/-- It stands for the real number. -/
theorem toField_exact (tolerance x : ℝ) : toField (exact tolerance x) = x := rfl

/-- The polynomial `(x + 1)⁴ + gap (x + 1)`. -/
noncomputable def exactNearlyQuadruple (tolerance gap : ℝ) :
    Poly (Complex (Tolerant tolerance)) where
  coeffs := [exact tolerance 1, exact tolerance (4 : ℕ), exact tolerance (6 : ℕ),
    exact tolerance ((4 : ℕ) + gap), exact tolerance (1 + gap)]
  nonempty := by simp

/-- Its depressed form is `u⁴ + gap u`. -/
theorem depressed_exactNearlyQuadruple {tolerance gap : ℝ}
    {quartic : DepressedQuartic (Complex (Tolerant tolerance))}
    (isDepressed : quartic = .ofMonic (exact tolerance (4 : ℕ)) (exact tolerance (6 : ℕ))
      (exact tolerance ((4 : ℕ) + gap)) (exact tolerance (1 + gap))) :
    toField quartic.p = 0 ∧ toField quartic.q = gap ∧ toField quartic.r = 0 := by
  subst isDepressed
  refine ⟨?_, ?_, ?_⟩
  · simp only [DepressedQuartic.ofMonic, toField_sub, toField_mul, toField_mulReal_tenths,
      toField_divReal_tenths, toField_exact, Nat.cast_ofNat]
    norm_num
  · simp only [DepressedQuartic.ofMonic, toField_sub, toField_add, toField_mul,
      toField_mulReal_tenths, toField_divReal_tenths, toField_exact, Nat.cast_ofNat]
    push_cast
    ring
  · simp only [DepressedQuartic.ofMonic, toField_sub, toField_add, toField_neg, toField_mul,
      toField_mulReal_tenths, toField_divReal_tenths, toField_exact, Nat.cast_ofNat]
    push_cast
    ring

/-- Without rounding, a search for the roots of `(x + 1)⁴ + 2⁻³⁰ (x + 1)` ends at a vanishing
divisor: the linear term is above the tolerance, and nothing is left of the resolvent. -/
theorem search_vanishes_exactNearlyQuadruple :
    ((exactNearlyQuadruple (1 / 2 ^ 52) (1 / 2 ^ 30)).search {}).outcome =
      .error (.fault .vanishingDivisor) := by
  have positive : (0 : ℝ) < 1 / 2 ^ 52 := by norm_num
  have kept {x : ℝ} (large : 1 / 2 ^ 52 ≤ x) : isNegligible (exact (1 / 2 ^ 52) x) = false := by
    rw [← Bool.not_eq_true, isNegligible_iff_of_real positive (toField_exact _ x),
      abs_of_pos (positive.trans_le large)]
    exact not_lt.mpr large
  have accepted : Poly.ofList? (exactNearlyQuadruple (1 / 2 ^ 52) (1 / 2 ^ 30)).coeffs =
      .ok (exactNearlyQuadruple (1 / 2 ^ 52) (1 / 2 ^ 30)) :=
    Poly.ofList?_eq_ok_iff.mpr ⟨⟨exact _ 1, List.mem_cons_self, kept (by norm_num)⟩, rfl⟩
  have tight : Tight (exactNearlyQuadruple (1 / 2 ^ 52) (1 / 2 ^ 30)).coeffs :=
    ⟨⟨exact _ 1, _, rfl, kept (by norm_num)⟩,
      ⟨[exact _ 1, exact _ (4 : ℕ), exact _ (6 : ℕ), exact _ ((4 : ℕ) + 1 / 2 ^ 30)],
        exact _ (1 + 1 / 2 ^ 30), rfl, kept (by norm_num)⟩⟩
  have overOne (c : Complex (Tolerant (1 / 2 ^ 52))) : overLead (exact _ 1) c = c := overLead_one c
  obtain ⟨quartic, isDepressed⟩ : ∃ quartic, quartic = DepressedQuartic.ofMonic
      (exact (1 / 2 ^ 52) (4 : ℕ)) (exact _ (6 : ℕ)) (exact _ ((4 : ℕ) + 1 / 2 ^ 30))
      (exact _ (1 + 1 / 2 ^ 30)) := ⟨_, rfl⟩
  obtain ⟨p, q, r⟩ := depressed_exactNearlyQuadruple isDepressed
  have b : toField quartic.resolvent.b = ((0 : ℝ) : ℂ) := by
    rw [DepressedQuartic.toField_resolvent_b, p]
    simp
  have c : toField quartic.resolvent.c = ((0 : ℝ) : ℂ) := by
    simp [DepressedQuartic.resolvent, p, r]
  have d : toField quartic.resolvent.d = ((-(1 / 2 ^ 63) : ℝ) : ℂ) := by
    simp only [DepressedQuartic.resolvent, toField_sub, toField_mul, toField_mulReal_tenths,
      toField_divReal_tenths, p, q, r, Nat.cast_ofNat]
    push_cast
    norm_num
  have : StandardConstants (Complex (Tolerant (1 / 2 ^ 52))) := standardConstants (by norm_num)
  apply ((search_vanishes_iff accepted {} .asStored).2 positive (by norm_num) accepted {} _).mpr
  refine ⟨quartic, ⟨rfl, _, _, _, _, _, (ofCoeffs_of_tight tight).1, ?_, ?_⟩, ?_, ?_,
    Or.inl ⟨?_, ?_, ?_⟩⟩
  · rw [overOne, kept (by norm_num)]
    rfl
  · rw [overOne, overOne, overOne, overOne]
    exact isDepressed
  · rw [← Bool.not_eq_true, isNegligible_iff_of_real positive q]
    norm_num
  · rw [p, Complex.zero_re]
  · rw [isNegligible_iff_of_real positive b]
    norm_num
  · rw [isNegligible_iff_of_real positive c]
    norm_num
  · rw [isNegligible_iff_of_real positive d]
    norm_num

/-- The polynomial `(x + 1)⁴ + 2⁻³⁰ (x + 1)` in hardware numbers. -/
def nearlyQuadruple : Poly (Complex Float) where
  coeffs := [1, 4, 6, 4 + 9.31322574615478515625e-10, 1 + 9.31322574615478515625e-10].map
    Complex.ofReal
  nonempty := by simp

/-- The cause of a search's failure. -/
def failure? {K : Type} : Except Error (Report K) → Option Error
  | .ok _ => none
  | .error cause => some cause

/-- A polynomial with finite coefficients for which a search ends at a vanishing divisor. -/
theorem search_vanishes_nearlyQuadruple :
    Poly.ofList? nearlyQuadruple.coeffs = .ok nearlyQuadruple ∧
      (∀ c ∈ nearlyQuadruple.coeffs, c.isFinite = true) ∧
        (nearlyQuadruple.search {}).outcome = .error (.fault .vanishingDivisor) := by
  refine ⟨?_, ?_, ?_⟩
  · exact Poly.ofList?_eq_ok_iff.mpr
      ⟨⟨1, List.mem_cons_self, StandardConstants.isNegligible_one⟩, rfl⟩
  · exact List.all_eq_true.mp (by decide +kernel)
  · have cause : failure? (nearlyQuadruple.search {}).outcome =
        some (.fault .vanishingDivisor) := by decide +kernel
    cases outcome : (nearlyQuadruple.search {}).outcome with
    | ok report =>
        rw [outcome] at cause
        cases cause
    | error other =>
        rw [outcome] at cause
        rw [Option.some.inj cause]

end RootFinding
