import RootFinding.Proofs.Tolerance.Vanishing

/-!
# Which divisors can be zero within a tolerance

The coefficients that a formula divides by are not negligible, so they are not zero. The cube roots
of a general cubic are not, since the larger candidate is no smaller than the root of a discriminant
that is not negligible. What remains is the first root of a quadratic, which can be zero; but not in
a nested call, where the leading coefficient is one and the constant term is not negligible. Where
it is zero, the second root is whatever dividing by zero gives.
-/

namespace RootFinding.ClosedForm

open Coefficient Reduction Tolerant

variable {ε : ℝ}

/-- A leading coefficient other than zero is divided by without dividing by zero. -/
theorem zero_notMem_leadDivisors {lead : Complex (Tolerant ε)} (nonzero : lead ≠ 0) :
    0 ∉ leadDivisors lead := by
  unfold leadDivisors
  split
  · exact List.not_mem_nil
  · rw [List.mem_singleton]
    exact nonzero.symm

/-- Of the two divisors of a quadratic only the product with the first root can be zero. -/
theorem zero_mem_quadraticDivisors_iff {a : Complex (Tolerant ε)} (lead : a ≠ 0)
    (b c : Complex (Tolerant ε)) : 0 ∈ quadraticDivisors a b c ↔ firstRoot a b c = 0 := by
  have product : a * firstRoot a b c = 0 ↔ firstRoot a b c = 0 := by
    rw [← not_iff_not, ← ne_eq, mul_ne_zero_iff]
    exact and_iff_right lead
  rw [quadraticDivisors, List.mem_cons, or_iff_right (mulReal_two_ne_zero lead).symm,
    List.mem_singleton, eq_comm, product]

/-- The cube roots are as large as the root of a discriminant that is not negligible. -/
theorem MonicCubic.cubeRoot_ne_zero (positive : 0 < ε) {cubic : MonicCubic (Complex (Tolerant ε))}
    (simple : isNegligible cubic.discriminant = false) :
    cbrt (mulReal cubic.largerCandidate 0.5) ≠ 0 := by
  intro vanishes
  have cubed := norm_cbrt (mulReal cubic.largerCandidate 0.5)
  rw [vanishes, toField_zero, norm_zero, zero_pow three_ne_zero, toField_mulReal_tenths, norm_mul,
    eq_comm, mul_eq_zero] at cubed
  have larger : ‖toField cubic.largerCandidate‖ = 0 := cubed.resolve_right (by norm_num)
  have rootLarge := le_normSq_sqrt positive simple
  have bound := cubic.norm_sqrt_le_larger
  rw [larger] at bound
  rw [le_antisymm bound (norm_nonneg _), zero_pow two_ne_zero] at rootLarge
  exact absurd positive (not_lt.mpr rootLarge)

/-- The cube root of unity is not zero. -/
theorem omega_ne_zero : (omega : Complex (Tolerant ε)) ≠ 0 := by
  rw [ne_eq, ← toField_eq_zero, toField_omega, ← norm_eq_zero, MonicCubic.norm_omega]
  exact one_ne_zero

/-- Neither is its conjugate. -/
theorem conj_omega_ne_zero : (conj omega : Complex (Tolerant ε)) ≠ 0 := by
  rw [ne_eq, ← toField_eq_zero, toField_conj, toField_omega, ← norm_eq_zero,
    MonicCubic.norm_conj_omega]
  exact one_ne_zero

/-- Each branch of a cubic divides by what its test has kept away from zero. -/
theorem MonicCubic.zero_notMem_divisors (positive : 0 < ε)
    (cubic : MonicCubic (Complex (Tolerant ε))) : 0 ∉ cubic.divisors := by
  unfold MonicCubic.divisors
  split
  · split
    · exact List.not_mem_nil
    · next double =>
      have nonzero : cubic.D₀ ≠ 0 := ne_zero_of_kept positive (Bool.eq_false_iff.mpr double)
      simp [nonzero.symm, (mulReal_two_ne_zero nonzero).symm]
  · next simple =>
    have first := MonicCubic.cubeRoot_ne_zero positive (Bool.eq_false_iff.mpr simple)
    dsimp only
    generalize cbrt (mulReal cubic.largerCandidate 0.5) = C at first ⊢
    have second : omega * C ≠ 0 := mul_ne_zero_iff.mpr ⟨omega_ne_zero, first⟩
    have third : conj omega * C ≠ 0 := mul_ne_zero_iff.mpr ⟨conj_omega_ne_zero, first⟩
    simp [first.symm, second.symm, third.symm]

/-- A cubic never leads to a division by zero. -/
theorem zero_notMem_cubicDivisors (positive : 0 < ε) {a : Complex (Tolerant ε)} (lead : a ≠ 0)
    (b c d : Complex (Tolerant ε)) : 0 ∉ cubicDivisors a b c d :=
  List.not_mem_append (zero_notMem_leadDivisors lead)
    (MonicCubic.zero_notMem_divisors positive _)

/-- Only the first root of a quadratic can make a formula divide by zero, as long as the formula for
a quartic does not. -/
theorem zero_mem_coreDivisors_iff (positive : 0 < ε)
    {quartic : Complex (Tolerant ε) → Complex (Tolerant ε) → Complex (Tolerant ε) →
      Complex (Tolerant ε) → Complex (Tolerant ε) → List (Complex (Tolerant ε))}
    (noQuartic : ∀ a b c d e, a ≠ 0 → 0 ∉ quartic a b c d e)
    {core : List (Complex (Tolerant ε))} (tight : Tight core) :
    0 ∈ coreDivisors quartic core ↔ ∃ a b c, core = [a, b, c] ∧ firstRoot a b c = 0 := by
  obtain ⟨lead, rest, rfl, kept⟩ := tight.first
  have nonzero := ne_zero_of_kept positive kept
  match rest with
  | [] => simp [coreDivisors]
  | [b] => simp [coreDivisors, zero_notMem_leadDivisors nonzero]
  | [b, c] => simp [coreDivisors, zero_mem_quadraticDivisors_iff nonzero]
  | [b, c, d] => simp [coreDivisors, zero_notMem_cubicDivisors positive nonzero]
  | [b, c, d, e] => simp [coreDivisors, noQuartic _ _ _ _ _ nonzero]
  | _ :: _ :: _ :: _ :: _ :: _ => simp [coreDivisors]

/-- Ferrari's method never divides by zero: it fails instead. -/
theorem DepressedQuartic.zero_notMem_ferrariDivisors
    (quartic : DepressedQuartic (Complex (Tolerant ε)))
    (resolventRoots : List (Complex (Tolerant ε))) :
    0 ∉ quartic.ferrariDivisors resolventRoots := by
  unfold DepressedQuartic.ferrariDivisors
  split
  · exact List.not_mem_nil
  · dsimp only
    split
    · exact List.not_mem_nil
    · next nonzero =>
      rw [List.mem_singleton]
      intro vanishes
      exact nonzero (beq_iff_eq.mpr vanishes.symm)

section Nested

variable [StandardConstants (Complex (Tolerant ε))]

/-- A nested call never divides by zero. -/
theorem zero_notMem_nestedDivisors (positive : 0 < ε) (rest : List (Complex (Tolerant ε))) :
    0 ∉ nestedDivisors (1 :: rest) := by
  have tight := tight_core (substantial_one_cons rest)
  unfold nestedDivisors
  rw [zero_mem_coreDivisors_iff positive (fun _ _ _ _ _ _ => List.not_mem_nil) tight]
  rintro ⟨a, b, c, shape, vanishes⟩
  obtain ⟨tail, monic⟩ := exists_core_one_cons rest
  obtain rfl : a = 1 := (List.cons.inj (shape.symm.trans monic)).1
  obtain ⟨init, final, ending, kept⟩ := tight.last
  obtain rfl : c = final := by
    have finals := congrArg List.getLast? (shape.symm.trans ending)
    simpa using finals
  exact firstRoot_one_ne_zero b positive kept vanishes

/-- A depressed quartic never leads to a division by zero. -/
theorem DepressedQuartic.zero_notMem_divisors (positive : 0 < ε)
    (quartic : DepressedQuartic (Complex (Tolerant ε)))
    (order : Bag.TableOrder (Complex (Tolerant ε))) : 0 ∉ quartic.divisors order := by
  unfold DepressedQuartic.divisors
  split
  · exact zero_notMem_nestedDivisors positive _
  · apply List.not_mem_append (zero_notMem_nestedDivisors positive _)
    split
    · exact List.not_mem_nil
    · exact quartic.zero_notMem_ferrariDivisors _

/-- Neither does a quartic. -/
theorem zero_notMem_quarticDivisors (positive : 0 < ε)
    (order : Bag.TableOrder (Complex (Tolerant ε))) {lead : Complex (Tolerant ε)}
    (nonzero : lead ≠ 0) (a b c d : Complex (Tolerant ε)) :
    0 ∉ quarticDivisors order lead a b c d := by
  apply List.not_mem_append (zero_notMem_leadDivisors nonzero)
  unfold monicQuarticDivisors
  split
  · exact zero_notMem_nestedDivisors positive _
  · exact DepressedQuartic.zero_notMem_divisors positive _ order

/-- Only the first root of a quadratic can make a closed form divide by zero. -/
theorem zero_mem_divisors_iff (positive : 0 < ε) (order : Bag.TableOrder (Complex (Tolerant ε)))
    {coeffs : List (Complex (Tolerant ε))} (substantial : Substantial coeffs) :
    0 ∈ divisors order coeffs ↔
      ∃ a b c, (ofCoeffs coeffs).core = [a, b, c] ∧ firstRoot a b c = 0 :=
  zero_mem_coreDivisors_iff positive
    (fun _ _ _ _ _ nonzero => zero_notMem_quarticDivisors positive order nonzero _ _ _ _)
    (tight_core substantial)

/-- The coefficients for which it does. -/
theorem zero_mem_divisors_iff_small (positive : 0 < ε)
    (order : Bag.TableOrder (Complex (Tolerant ε))) {coeffs : List (Complex (Tolerant ε))}
    (substantial : Substantial coeffs) :
    0 ∈ divisors order coeffs ↔ ∃ a c, (ofCoeffs coeffs).core = [a, 0, c] ∧
      (toField (a * c)).re = 0 ∧ 4 * |(toField (a * c)).im| < ε := by
  obtain ⟨lead, rest, leading, kept⟩ := (tight_core substantial).first
  rw [zero_mem_divisors_iff positive order substantial, leading]
  have nonzero := ne_zero_of_kept positive kept
  constructor
  · rintro ⟨a, b, c, shape, vanishes⟩
    obtain rfl := (List.cons.inj shape).1
    obtain ⟨rfl, small⟩ := (firstRoot_eq_zero_iff b c positive nonzero).mp vanishes
    exact ⟨lead, c, shape, small⟩
  · rintro ⟨a, c, shape, small⟩
    obtain rfl := (List.cons.inj shape).1
    exact ⟨lead, 0, c, shape, (firstRoot_eq_zero_iff 0 c positive nonzero).mpr ⟨rfl, small⟩⟩

end Nested

section Dependence

/-- Division, but one where the divisor is zero. -/
@[reducible]
noncomputable def oneOverZero : Div (Complex (Tolerant ε)) :=
  ⟨fun x z => if z == 0 then 1 else x / z⟩

/-- Dividing by zero gives one. -/
theorem oneOverZero_zero (x : Complex (Tolerant ε)) : oneOverZero.div x 0 = 1 :=
  if_pos (beq_self_eq_true 0)

/-- Dividing by anything else is division. -/
theorem oneOverZero_of_ne (x : Complex (Tolerant ε)) {z : Complex (Tolerant ε)} (nonzero : z ≠ 0) :
    oneOverZero.div x z = x / z :=
  if_neg fun isZero => nonzero (eq_of_beq isZero)

/-- Where the first root of a quadratic is zero, the second is what dividing by zero gives. -/
theorem dependsOnZeroDivision_of_firstRoot (order : Bag.TableOrder (Complex (Tolerant ε)))
    {coeffs : List (Complex (Tolerant ε))}
    {a b c : Complex (Tolerant ε)} (shape : (ofCoeffs coeffs).core = [a, b, c])
    (short : (ofCoeffs coeffs).zeros ≤ 2) (lead : a ≠ 0) (vanishes : firstRoot a b c = 0) :
    DependsOnZeroDivision (Complex (Tolerant ε)) (solve order coeffs) := by
  have solves : SolvesTo (solve order coeffs)
      ([firstRoot a b c, c / (a * firstRoot a b c)] ++
        List.replicate (ofCoeffs coeffs).zeros 0) :=
    solvesTo_solve_of_quadratic order shape short
  have otherSolves : SolvesTo (@solve _ _ _ _ _ _ _ _ oneOverZero _ _ _ order coeffs)
      ([@firstRoot _ _ _ _ _ _ _ _ oneOverZero a b c,
          oneOverZero.div c (a * @firstRoot _ _ _ _ _ _ _ _ oneOverZero a b c)] ++
        List.replicate (ofCoeffs coeffs).zeros 0) :=
    @solvesTo_solve_of_quadratic _ _ _ _ _ _ _ _ oneOverZero _ _ _ _ order _ _ _ _ shape short
  -- The first root is a quotient by twice the leading coefficient, so it is the same.
  have sameFirst : @firstRoot _ _ _ _ _ _ _ _ oneOverZero a b c = 0 := by
    rw [← vanishes]
    exact oneOverZero_of_ne _ (mulReal_two_ne_zero lead)
  have product : a * 0 = 0 := toField_injective (by simp)
  have quotient : c / 0 = 0 := toField_injective (by simp)
  rw [vanishes, product, quotient] at solves
  rw [sameFirst, product, oneOverZero_zero] at otherSolves
  refine ⟨oneOverZero, fun x z nonzero => oneOverZero_of_ne x nonzero, fun same => ?_⟩
  dsimp only at same
  rw [same] at otherSolves
  obtain ⟨bag, finished, values⟩ := solves
  obtain ⟨otherBag, otherFinished, otherValues⟩ := otherSolves
  obtain rfl := Except.ok.inj (finished.symm.trans otherFinished)
  have member : (1 : Complex (Tolerant ε)) ∈ [0, 0] := by
    apply ((List.perm_append_right_iff _).mp (otherValues.symm.trans values)).mem_iff.mp
    simp
  have isZero : (1 : Complex (Tolerant ε)) = 0 := by simpa using member
  exact one_ne_zero (congrArg toField isZero)

end Dependence

end RootFinding.ClosedForm
