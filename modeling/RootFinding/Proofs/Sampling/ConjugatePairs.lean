import RootFinding.Proofs.Binary.Laws
import RootFinding.Proofs.Exact.ComplexField
import RootFinding.Proofs.Expansion
import RootFinding.Sampling.TestCase

/-!
# Roots in conjugate pairs

Half of the roots of a conjugate test case are drawn, each is followed by its conjugate, and an odd
degree brings one real root. So the roots are closed under conjugation, and as often as a number is
among them its conjugate is too. Conjugation therefore only rearranges the roots, and as it also
goes through the expansion coefficient by coefficient, the product of all linear factors is its own
conjugate although the partial products are not.
-/

namespace RootFinding

section Streams

variable {σ α : Type} [Std.Stream σ α]

/-- A stream yields these values one after another, and another stream is left. -/
inductive Yields : σ → List α → σ → Prop
  | nil (stream : σ) : Yields stream [] stream
  | cons {stream between rest : σ} {value : α} {values : List α} :
      Std.Stream.next? stream = some (value, between) → Yields between values rest →
        Yields stream (value :: values) rest

/-- Taking as many values as a stream yields leaves the stream behind them. -/
theorem Yields.takeSamples_eq {stream rest : σ} {values : List α}
    (yields : Yields stream values rest) : takeSamples values.length stream = (values, rest) := by
  induction yields with
  | nil => rfl
  | cons drawn _ inductionHypothesis =>
      rw [List.length_cons, takeSamples, drawn]
      simp only [inductionHypothesis]

/-- What is yielded is yielded in parts. -/
theorem Yields.split {stream rest : σ} (front back : List α)
    (yields : Yields stream (front ++ back) rest) :
    ∃ between : σ, Yields stream front between ∧ Yields between back rest := by
  induction front generalizing stream with
  | nil => exact ⟨stream, .nil stream, yields⟩
  | cons value front inductionHypothesis =>
      cases yields with
      | cons drawn others =>
          obtain ⟨between, first, second⟩ := inductionHypothesis others
          exact ⟨between, .cons drawn first, second⟩

/-- A stream that yields one value is what a sample is drawn from. -/
theorem Yields.drawSample_eq {stream rest : σ} {value : α} (yields : Yields stream [value] rest) :
    drawSample stream = .ok (value, rest) := by
  cases yields with
  | cons drawn none =>
      cases none
      rw [drawSample, drawn]

end Streams

/-- Coefficients whose equality goes along with conjugation: equal numbers have equal conjugates,
and a number with imaginary part zero equals its own. -/
class ConjugateSymmetric (K : Type) {R : Type} [BEq K] [Scalar R] [Coefficient K R] : Prop where
  beq_conj (z w : K) : (z == Coefficient.conj w) = (Coefficient.conj z == w)
  conj_conj (z : K) : Coefficient.conj (Coefficient.conj z) = z
  conj_real_beq (x : R) (z : K) :
    (Coefficient.conj (Coefficient.ofParts x 0 : K) == z) = (Coefficient.ofParts x 0 == z)

instance {R : Type} [RealFunctions R] [FloatingScalar R] : ConjugateSymmetric (Complex R) where
  beq_conj z w := congrArg (z.re == w.re && ·) (FloatingScalar.neg_beq z.im w.im).symm
  conj_conj z := congrArg (Complex.mk z.re) (FloatingScalar.neg_neg z.im)
  conj_real_beq x z := congrArg (x == z.re && ·)
    (FloatingScalar.Same.beq FloatingScalar.neg_zero_same (FloatingScalar.Same.refl z.im))

instance : ConjugateSymmetric ℂ where
  beq_conj z w := by
    rw [Bool.eq_iff_iff, beq_iff_eq, beq_iff_eq]
    constructor
    · rintro rfl
      exact Complex.conj_conj w
    · rintro rfl
      exact (Complex.conj_conj z).symm
  conj_conj z := Complex.conj_conj z
  conj_real_beq x z := congrArg (· == z) (Complex.conj_ofReal x)

section Roots

variable {K R : Type} [Scalar R] [Coefficient K R]

/-- The roots made of some samples: the samples of the first half in pairs with their conjugates,
and the real part of what is left. -/
def conjugateRoots (degree : Nat) (drawn : List K) : List K :=
  (drawn.take (degree / 2)).flatMap (fun z => [z, Coefficient.conj z]) ++
    (drawn.drop (degree / 2)).map fun z => Coefficient.ofParts (Coefficient.re z) 0

omit [Scalar R] in
/-- Each number makes a pair with its conjugate. -/
theorem length_pairs (halves : List K) :
    (halves.flatMap fun z => [z, Coefficient.conj z]).length = 2 * halves.length := by
  induction halves with
  | nil => rfl
  | cons z halves inductionHypothesis =>
      rw [List.flatMap_cons, List.length_append, inductionHypothesis, List.length_cons,
        List.length_cons, List.length_cons, List.length_nil]
      omega

/-- There are as many roots as the degree. -/
theorem length_conjugateRoots {degree : Nat} {drawn : List K}
    (enough : drawn.length = degree / 2 + degree % 2) :
    (conjugateRoots degree drawn).length = degree := by
  rw [conjugateRoots, List.length_append, length_pairs, List.length_take, List.length_map,
    List.length_drop]
  omega

variable [BEq K] [ConjugateSymmetric K]

open ConjugateSymmetric

/-- In a pair a number is as often as its conjugate. -/
theorem count_conj_pairs (halves : List K) (z : K) :
    (halves.flatMap fun w => [w, Coefficient.conj w]).count (Coefficient.conj z) =
      (halves.flatMap fun w => [w, Coefficient.conj w]).count z := by
  induction halves with
  | nil => rfl
  | cons w halves inductionHypothesis =>
      rw [List.flatMap_cons, List.count_append, List.count_append, inductionHypothesis]
      simp only [List.count_cons, List.count_nil, beq_conj, conj_conj]
      omega

/-- Among real numbers a number occurs as often as its conjugate. -/
theorem count_conj_reals (reals : List R) (z : K) :
    (reals.map fun x => (Coefficient.ofParts x 0 : K)).count (Coefficient.conj z) =
      (reals.map fun x => (Coefficient.ofParts x 0 : K)).count z := by
  induction reals with
  | nil => rfl
  | cons x reals inductionHypothesis =>
      rw [List.map_cons, List.count_cons, List.count_cons, inductionHypothesis, beq_conj,
        conj_real_beq]

/-- The roots are closed under conjugation with equal multiplicities. -/
theorem count_conj_conjugateRoots (degree : Nat) (drawn : List K) (z : K) :
    (conjugateRoots degree drawn).count (Coefficient.conj z) =
      (conjugateRoots degree drawn).count z := by
  have reals := count_conj_reals ((drawn.drop (degree / 2)).map Coefficient.re) z
  rw [List.map_map] at reals
  rw [conjugateRoots, List.count_append, List.count_append, count_conj_pairs]
  exact congrArg _ reals

end Roots

section Run

variable {K R σ τ : Type} [Zero K] [One K] [Sub K] [Mul K] [Scalar R] [Coefficient K R]
  [Std.Stream σ K] [Std.Stream τ K] {samples rest : σ} {scales scalesRest : τ} {drawn : List K}
  {scale : K} {degree : Nat}

/-- A conjugate test case draws one sample for each pair and one for a single root, and one
scale. -/
theorem TestCase.conjugate_eq (yields : Yields samples drawn rest)
    (enough : drawn.length = degree / 2 + degree % 2)
    (scaled : Std.Stream.next? scales = some (scale, scalesRest)) :
    TestCase.conjugate samples scales degree =
      .ok (⟨(Poly.ofRoots (conjugateRoots degree drawn)).scale scale,
        conjugateRoots degree drawn⟩, rest, scalesRest) := by
  have drawScale : drawSample scales = .ok (scale, scalesRest) := by rw [drawSample, scaled]
  -- The first half of the samples are the pairs, and what is left is one sample or none.
  have parts := yields
  rw [← List.take_append_drop (degree / 2) drawn] at parts
  obtain ⟨between, halves, others⟩ := parts.split
  have length : (drawn.take (degree / 2)).length = degree / 2 := by
    rw [List.length_take]
    omega
  have half := halves.takeSamples_eq
  rw [length] at half
  rw [TestCase.conjugate, half]
  simp only [conjugateRoots]
  split
  · next odd =>
    have single : (drawn.drop (degree / 2)).length = 1 := by
      have := beq_iff_eq.mp odd
      rw [List.length_drop]
      omega
    obtain ⟨z, last⟩ := List.length_eq_one_iff.mp single
    rw [last] at others ⊢
    rw [others.drawSample_eq]
    simp only [TestCase.ofRoots, drawScale]
    rfl
  · next even =>
    have none : drawn.drop (degree / 2) = [] := by
      rw [beq_iff_eq] at even
      refine List.drop_eq_nil_of_le ?_
      omega
    rw [none] at others ⊢
    cases others
    simp only [TestCase.ofRoots, drawScale, List.map_nil, List.append_nil]
    rfl

end Run

section Exact

/-- A list in which every number is as often as its conjugate is rearranged by conjugation. -/
theorem map_conj_perm {roots : List ℂ}
    (closed : ∀ z, roots.count (Coefficient.conj z) = roots.count z) :
    (roots.map (starRingEnd ℂ)).Perm roots := by
  rw [List.perm_iff_count]
  intro z
  have moved := List.count_map_of_injective roots (starRingEnd ℂ) (starRingEnd ℂ).injective
    (starRingEnd ℂ z)
  rw [Complex.conj_conj] at moved
  exact moved.trans (closed z)

/-- The product of linear factors whose roots are closed under conjugation is real. -/
theorem im_coeffs_ofRoots {roots : List ℂ}
    (closed : ∀ z, roots.count (Coefficient.conj z) = roots.count z) {c : ℂ}
    (coefficient : c ∈ (Poly.ofRoots roots).coeffs) : c.im = 0 := by
  have fixed := Poly.map_coeffs_ofRoots (starRingEnd ℂ) roots
  rw [Poly.ofRoots_perm (map_conj_perm closed)] at fixed
  have own : ∀ c ∈ (Poly.ofRoots roots).coeffs, starRingEnd ℂ c = c :=
    List.map_inj_left.mp (fixed.trans (List.map_id _).symm)
  exact Complex.conj_eq_iff_im.mp (own c coefficient)

end Exact

/-- A conjugate test case draws one sample for each pair of roots and one for a single root, and one
scale. It has as many roots as its degree, one coefficient more, and with each number its conjugate
as often among the roots. In exact arithmetic and with a real scale all coefficients are real, and
the polynomial vanishes at every root. -/
theorem conjugate_is_real :
    (∀ {K R σ τ : Type} [Zero K] [One K] [Sub K] [Mul K] [BEq K] [Scalar R] [Coefficient K R]
      [ConjugateSymmetric K] [Std.Stream σ K] [Std.Stream τ K] {samples rest : σ}
      {scales scalesRest : τ} {drawn : List K} {scale : K} {degree : Nat},
      Yields samples drawn rest → drawn.length = degree / 2 + degree % 2 →
        Std.Stream.next? scales = some (scale, scalesRest) →
          ∃ testCase : TestCase K,
            TestCase.conjugate samples scales degree = .ok (testCase, rest, scalesRest) ∧
            testCase.roots.length = degree ∧
            testCase.poly.coeffs.length = degree + 1 ∧
            ∀ z, testCase.roots.count (Coefficient.conj z) = testCase.roots.count z) ∧
    ∀ {σ τ : Type} [Std.Stream σ ℂ] [Std.Stream τ ℂ] {samples rest : σ} {scales scalesRest : τ}
      {drawn : List ℂ} {scale : ℝ} {degree : Nat},
      Yields samples drawn rest → drawn.length = degree / 2 + degree % 2 →
        Std.Stream.next? scales = some ((scale : ℂ), scalesRest) →
          ∃ testCase : TestCase ℂ,
            TestCase.conjugate samples scales degree = .ok (testCase, rest, scalesRest) ∧
            (∀ c ∈ testCase.poly.coeffs, c.im = 0) ∧
            ∀ r ∈ testCase.roots, testCase.poly.eval r = 0 := by
  constructor
  · intro K R σ τ _ _ _ _ _ _ _ _ _ _ samples rest scales scalesRest drawn scale degree yields
      enough scaled
    have length := length_conjugateRoots enough
    refine ⟨_, TestCase.conjugate_eq yields enough scaled, length, ?_,
      count_conj_conjugateRoots degree drawn⟩
    change (List.map _ _).length = _
    rw [List.length_map, Poly.length_coeffs_ofRoots, length]
  · intro σ τ _ _ samples rest scales scalesRest drawn scale degree yields enough scaled
    refine ⟨_, TestCase.conjugate_eq yields enough scaled, ?_, fun r isRoot => ?_⟩
    · intro c coefficient
      obtain ⟨unscaled, isUnscaled, rfl⟩ := List.mem_map.mp coefficient
      have real := im_coeffs_ofRoots (count_conj_conjugateRoots degree drawn) isUnscaled
      rw [Complex.im_mul_ofReal, real, zero_mul]
    · rw [Poly.eval_scale, Poly.eval_ofRoots]
      have factor : (0 : ℂ) ∈ (conjugateRoots degree drawn).map fun root => r - root :=
        List.mem_map.mpr ⟨r, isRoot, sub_self r⟩
      rw [List.prod_eq_zero factor, mul_zero]

/-- A cubic from two of three samples, in hardware and in exact numbers. -/
theorem conjugate_is_real_cubic :
    (∃ testCase : TestCase (Complex Float),
      TestCase.conjugate [(⟨1, 2⟩ : Complex Float), ⟨3, 4⟩, ⟨5, 6⟩] [(⟨2, 0⟩ : Complex Float)] 3 =
        .ok (testCase, [⟨5, 6⟩], []) ∧
      testCase.roots.length = 3 ∧ testCase.poly.coeffs.length = 4 ∧
      ∀ z, testCase.roots.count (Coefficient.conj z) = testCase.roots.count z) ∧
    ∃ testCase : TestCase ℂ,
      TestCase.conjugate [(⟨1, 2⟩ : ℂ), ⟨3, 4⟩, ⟨5, 6⟩] [((2 : ℝ) : ℂ)] 3 =
        .ok (testCase, [⟨5, 6⟩], []) ∧
      (∀ c ∈ testCase.poly.coeffs, c.im = 0) ∧ ∀ r ∈ testCase.roots, testCase.poly.eval r = 0 :=
  ⟨conjugate_is_real.1 (.cons rfl (.cons rfl (.nil _))) rfl rfl,
    conjugate_is_real.2 (.cons rfl (.cons rfl (.nil _))) rfl rfl⟩

end RootFinding
