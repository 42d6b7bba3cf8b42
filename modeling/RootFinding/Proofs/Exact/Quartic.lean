import RootFinding.Proofs.Bag.Elements
import RootFinding.Proofs.Exact.Cubic

/-!
# The quartic, exactly

Without a cubic term a quartic is `u⁴ + p u² + q u + r`. If `q` is zero it is a quadratic at `u²`,
and its roots are the square roots of the quadratic's. Otherwise a root `y` of the resolvent makes
it a difference of two squares, of which the divisor `w`, a square root of `p + 2 y`, is half of
the difference. In terms of `p + 2 y` the resolvent has the constant term `-q²`: so for no root of
it is the divisor zero, and any of them will do.
-/

namespace RootFinding.ClosedForm

open Bag Coefficient ExactArithmetic Outcome Reduction

variable {K R : Type} [Field K] [Scalar R] [Coefficient K R] [ExactArithmetic K]

section Factors

namespace DepressedQuartic

variable (quartic : DepressedQuartic K)

/-- The depressed quartic at `u`. -/
def value (u : K) : K := u ^ 4 + quartic.p * u ^ 2 + quartic.q * u + quartic.r

/-- The square roots of a number are the roots of the difference to it. -/
theorem rootProduct_squareRoots (square x : K) :
    rootProduct (quartic.squareRoots square) x = (x + quartic.shift) ^ 2 - square := by
  have squared : sqrt square * sqrt square = square := sqrt_squared square
  simp only [squareRoots, rootProduct_cons, rootProduct_nil]
  linear_combination -squared

variable [CharZero K]

/-- The square of the divisor in terms of the root of the resolvent. -/
theorem divisorSquare_eq (y : K) : quartic.divisorSquare y = quartic.p + 2 * y := by
  simp only [divisorSquare, mulReal_tenths, Nat.cast_ofNat]
  ring

/-- The resolvent in terms of the square of the divisor. -/
theorem horner_resolvent (y : K) :
    8 * Poly.horner quartic.resolvent.coeffs y =
      quartic.divisorSquare y ^ 3 + 2 * quartic.p * quartic.divisorSquare y ^ 2 +
        (quartic.p ^ 2 - 4 * quartic.r) * quartic.divisorSquare y - quartic.q ^ 2 := by
  rw [MonicCubic.horner_coeffs, divisorSquare_eq]
  simp only [resolvent, mulReal_tenths, divReal_tenths, Nat.cast_ofNat]
  ring

/-- With a linear term, the divisor of no root of the resolvent vanishes. -/
theorem divisorSquare_ne_zero (linearTerm : quartic.q ≠ 0) {y : K}
    (isRoot : Poly.horner quartic.resolvent.coeffs y = 0) : quartic.divisorSquare y ≠ 0 := by
  intro vanishes
  have atRoot := quartic.horner_resolvent y
  rw [isRoot, vanishes] at atRoot
  exact pow_ne_zero 2 linearTerm (by linear_combination atRoot)

/-- The substitution takes the cubic term away. -/
theorem value_ofMonic (a b c d x : K) :
    (ofMonic a b c d).value (x + (ofMonic a b c d).shift) =
      x ^ 4 + a * x ^ 3 + b * x ^ 2 + c * x + d := by
  simp only [value, ofMonic, mulReal_tenths, divReal_tenths, Nat.cast_ofNat]
  ring

/-- The roots of two quadratics whose product is the difference of two squares. -/
theorem rootProduct_twoQuadratics {y w fraction plus minus : K}
    (squared : w * w = quartic.p + 2 * y) (fractionEq : w * fraction = 2 * quartic.q)
    (constantTerm : fraction ^ 2 = 16 * ((quartic.p + y) ^ 2 - quartic.r))
    (plusSquared : plus * plus = -(3 * quartic.p + 2 * y + fraction))
    (minusSquared : minus * minus = -(3 * quartic.p + 2 * y - fraction)) (u : K) :
    rootProduct [(w + plus) / 2, (-w + minus) / 2, (w - plus) / 2, (-w - minus) / 2] u =
      quartic.value u := by
  have first : (u - (w + plus) / 2) * (u - (w - plus) / 2) =
      u ^ 2 + quartic.p + y - (w * u - fraction / 4) := by
    linear_combination (squared - plusSquared) / 4
  have second : (u - (-w + minus) / 2) * (u - (-w - minus) / 2) =
      u ^ 2 + quartic.p + y + (w * u - fraction / 4) := by
    linear_combination (squared - minusSquared) / 4
  calc rootProduct [(w + plus) / 2, (-w + minus) / 2, (w - plus) / 2, (-w - minus) / 2] u
      = (u - (w + plus) / 2) * (u - (w - plus) / 2) *
          ((u - (-w + minus) / 2) * (u - (-w - minus) / 2)) := by
        simp only [rootProduct_cons, rootProduct_nil]
        ring
    _ = (u ^ 2 + quartic.p + y) ^ 2 - (w * u - fraction / 4) ^ 2 := by
        rw [first, second]
        ring
    _ = quartic.value u := by
        rw [value]
        linear_combination -u ^ 2 * squared + u / 2 * fractionEq - constantTerm / 16

/-- A root of the resolvent splits the quartic into two quadratics, whose roots these are. -/
theorem rootProduct_splitRoots {y w : K} (squared : w * w = quartic.divisorSquare y)
    (nonzero : w ≠ 0) (isRoot : Poly.horner quartic.resolvent.coeffs y = 0) (x : K) :
    rootProduct (quartic.splitRoots y w) x = quartic.value (x + quartic.shift) := by
  have atRoot := quartic.horner_resolvent y
  rw [isRoot, divisorSquare_eq] at atRoot
  rw [divisorSquare_eq] at squared
  have divisorNonzero : quartic.p + 2 * y ≠ 0 := by
    rw [← squared]
    exact mul_ne_zero nonzero nonzero
  obtain ⟨fraction, fractionEq⟩ : ∃ fraction, w * fraction = 2 * quartic.q :=
    ⟨2 * quartic.q / w, by field_simp⟩
  have quotient : quartic.q * (20 / 10) / w = fraction := by
    rw [div_eq_iff nonzero]
    linear_combination -fractionEq
  -- The squares that the quartic is the difference of agree at the constant term.
  have constantTerm : fraction ^ 2 = 16 * ((quartic.p + y) ^ 2 - quartic.r) := by
    refine mul_left_cancel₀ divisorNonzero ?_
    linear_combination -fraction ^ 2 * squared + (w * fraction + 2 * quartic.q) * fractionEq +
      4 * atRoot
  have sumEq : quartic.p * (30 / 10) + y * (20 / 10) = 3 * quartic.p + 2 * y := by ring
  have halfEq (z : K) : z * (5 / 10) = z / 2 := by ring
  simp only [splitRoots, mulReal_tenths, Nat.cast_ofNat, rootProduct_map_sub, quotient, sumEq,
    halfEq]
  exact quartic.rootProduct_twoQuadratics squared fractionEq constantTerm (sqrt_squared _)
    (sqrt_squared _) _

end DepressedQuartic

end Factors

variable [BEq K] [LawfulBEq K]

/-- A bag holds the roots of a function that is a product of linear factors: each root has one
entry, with its multiplicity. -/
structure HoldsRoots (bag : Bag K) (f : K → K) : Prop where
  distinct : Distinct bag.entries
  product : ∀ x, rootProduct bag.toList x = f x

/-- The bag of a short list holds the roots of the product over it. -/
theorem endsIn_ofList {roots : List K} (short : roots.length ≤ 4) {f : K → K}
    (product : ∀ x, rootProduct roots x = f x) :
    EndsIn (Bag.ofList roots) fun bag => HoldsRoots bag f := by
  obtain ⟨bag, built, same⟩ := solvesTo_ofList short
  refine ⟨bag, built, ?_, ?_⟩
  · rw [Traced.outcome_lift, ofList, insertAll_eq_insertEntries] at built
    exact distinct_iff_apart.mpr (wellFormed_insertEntries built wellFormed_nil).apart
  · intro x
    rw [rootProduct_perm same, product]

variable [CharZero K] (order : TableOrder K)

/-- The square roots of a quadratic's roots are the roots of the quadratic at a square. -/
theorem endsIn_squares {f : K → List K} {place : K → K}
    (pairs : ∀ square, (f square).length = 2)
    (factor : ∀ square x, rootProduct (f square) x = place x - square) (b d : K) :
    EndsIn (do ((← solveCubic [1, b, d]).arranged order).flatMap f) fun bag =>
      HoldsRoots bag fun x => place x ^ 2 + b * place x + d := by
  obtain ⟨squares, found, product⟩ : Solves (solveCubic [1, b, d]) 1 [1, b, d] :=
    solves_solveCubic (by simp)
  obtain ⟨bag, finished, _⟩ := yields_flatMap_squares order pairs b d
  refine ⟨bag, finished, ?_⟩
  rw [Traced.outcome_bind, found, ok_bind] at finished
  constructor
  · exact distinct_iff_apart.mpr (wellFormed_ofEntries finished).apart
  · intro x
    have images : bag.toList.Perm (squares.toList.flatMap f) :=
      (toList_flatMap finished).trans ((toList_arranged squares order).flatMap_right f)
    have quadratic := product (place x)
    simp only [Poly.horner, List.foldl_cons, List.foldl_nil] at quadratic
    rw [rootProduct_perm images, rootProduct_flatMap factor]
    linear_combination quadratic

namespace DepressedQuartic

variable (quartic : DepressedQuartic K)

/-- From any roots of the resolvent, in any order, Ferrari's method finds the roots. -/
theorem endsIn_ferrari (linearTerm : quartic.q ≠ 0) {resolventRoots : List K}
    (nonempty : resolventRoots ≠ [])
    (areRoots : ∀ y ∈ resolventRoots, Poly.horner quartic.resolvent.coeffs y = 0) :
    EndsIn (quartic.ferrari resolventRoots) fun bag =>
      HoldsRoots bag fun x => quartic.value (x + quartic.shift) := by
  obtain ⟨y, furthest⟩ := exists_last? (fun y => abs (quartic.divisorSquare y)) nonempty
  have isRoot := areRoots y (mem_of_last? furthest)
  have nonzero : sqrt (quartic.divisorSquare y) ≠ 0 :=
    sqrt_ne_zero (quartic.divisorSquare_ne_zero linearTerm isRoot)
  obtain ⟨bag, built, holds⟩ :=
    endsIn_ofList (by simp [splitRoots])
      (quartic.rootProduct_splitRoots (sqrt_squared _) nonzero isRoot)
  refine ⟨bag, ?_, holds⟩
  unfold ferrari
  simp only [furthest]
  rw [if_neg (by simpa using nonzero)]
  exact built

/-- The roots that the dispatch finds for the resolvent are three, and roots of it. -/
theorem exists_resolventRoots : ∃ resolventRoots,
    (solveCubic quartic.resolvent.coeffs).outcome = .ok resolventRoots ∧
      resolventRoots.toList ≠ [] ∧
      ∀ y ∈ resolventRoots.toList, Poly.horner quartic.resolvent.coeffs y = 0 := by
  obtain ⟨resolventRoots, found, product⟩ :
      Solves (solveCubic quartic.resolvent.coeffs) 1 quartic.resolvent.coeffs :=
    solves_solveCubic (by simp)
  have three : resolventRoots.total = 3 := quartic.yields_resolvent.total found
  refine ⟨resolventRoots, found, ?_, ?_⟩
  · exact List.ne_nil_of_length_pos (by rw [length_toList, three]; omega)
  · intro y member
    rw [← product, rootProduct_eq_zero member, mul_zero]

/-- Both paths find the roots of a depressed quartic. -/
theorem endsIn_roots : EndsIn (quartic.roots order) fun bag =>
    HoldsRoots bag fun x => quartic.value (x + quartic.shift) := by
  unfold roots
  split
  · next noLinearTerm =>
    have noLinearTerm := (isNegligible_iff _).mp noLinearTerm
    obtain ⟨bag, finished, holds⟩ := endsIn_squares order
      (fun _ => rfl) quartic.rootProduct_squareRoots quartic.p quartic.r
    refine ⟨bag, by simpa using finished, holds.distinct, ?_⟩
    intro x
    rw [holds.product, value, noLinearTerm]
    ring
  · next linearTerm =>
    have linearTerm := isNegligible_eq_false_iff.mp (Bool.eq_false_iff.mpr linearTerm)
    obtain ⟨resolventRoots, found, nonempty, areRoots⟩ := quartic.exists_resolventRoots
    have walked := toList_arranged resolventRoots order
    obtain ⟨bag, finished, holds⟩ := quartic.endsIn_ferrari linearTerm
      (fun empty => nonempty (List.nil_perm.mp (empty ▸ walked)))
      fun y member => areRoots y (walked.mem_iff.mp member)
    refine ⟨bag, ?_, holds⟩
    rw [Traced.outcome_bind, found, ok_bind]
    exact finished

end DepressedQuartic

/-- All paths find the roots of a monic quartic. -/
theorem endsIn_monicQuartic (a b c d : K) : EndsIn (monicQuartic order a b c d) fun bag =>
    HoldsRoots bag fun x => x ^ 4 + a * x ^ 3 + b * x ^ 2 + c * x + d := by
  unfold monicQuartic
  split
  · next biquadratic =>
    rw [Bool.and_eq_true, isNegligible_iff, isNegligible_iff] at biquadratic
    obtain ⟨rfl, rfl⟩ := biquadratic
    have factor (square x : K) :
        rootProduct [sqrt square, -sqrt square] x = x ^ 2 - square := by
      have squared : sqrt square * sqrt square = square := sqrt_squared square
      simp only [rootProduct_cons, rootProduct_nil]
      linear_combination -squared
    obtain ⟨bag, finished, holds⟩ := endsIn_squares order (fun _ => rfl) factor b d
    refine ⟨bag, by simpa using finished, holds.distinct, ?_⟩
    intro x
    rw [holds.product]
    ring
  · obtain ⟨bag, finished, holds⟩ := (DepressedQuartic.ofMonic a b c d).endsIn_roots order
    refine ⟨bag, finished, holds.distinct, ?_⟩
    intro x
    rw [holds.product, DepressedQuartic.value_ofMonic]

end RootFinding.ClosedForm
