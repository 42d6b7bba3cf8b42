import RootFinding.Proofs.Exact.Factorization
import RootFinding.Proofs.Horner

/-!
# Closed forms up to degree three, exactly

Without rounding each formula gives the roots of its polynomial with their multiplicities. What a
formula divides by is not zero: in a quadratic because the constant term is not, in a cubic because
the larger of two candidates is chosen, and both are zero only where the discriminant is. The branch
that a cubic takes tells how its roots coincide: all of them, two of them, or none.

The dispatch hands over to a formula what the reduction leaves, so the formulas may rely on a
constant term; the roots at the origin come back afterwards.
-/

namespace RootFinding.ClosedForm

open Bag Coefficient ExactArithmetic Outcome Reduction

variable {K R : Type} [Field K]

/-- The value of a monic cubic, as a sum of powers. -/
theorem MonicCubic.horner_coeffs (cubic : MonicCubic K) (x : K) :
    Poly.horner cubic.coeffs x = x ^ 3 + cubic.b * x ^ 2 + cubic.c * x + cubic.d := by
  simp only [MonicCubic.coeffs, Poly.horner, List.foldl_cons, List.foldl_nil]
  ring

/-- Three values with the right elementary symmetric sums are the roots. -/
theorem MonicCubic.rootProduct_of_sums (cubic : MonicCubic K) {x₁ x₂ x₃ : K}
    (sum : x₁ + x₂ + x₃ = -cubic.b)
    (pairs : x₁ * x₂ + x₁ * x₃ + x₂ * x₃ = cubic.c) (product : x₁ * x₂ * x₃ = -cubic.d) (x : K) :
    1 * rootProduct [x₁, x₂, x₃] x = Poly.horner cubic.coeffs x := by
  rw [horner_coeffs]
  simp only [rootProduct_cons, rootProduct_nil]
  linear_combination -x ^ 2 * sum + x * pairs - product

section LeadingCoefficient

variable [BEq K] [LawfulBEq K]

/-- The formula for degree one gives the root. -/
theorem solves_linear {a b : K} (lead : a ≠ 0) : Solves (linear a b) a [a, b] := by
  apply Solves.of_values (solvesTo_ofList (by simp))
  intro x
  rw [overLead_eq]
  simp only [rootProduct_cons, rootProduct_nil, Poly.horner, List.foldl_cons, List.foldl_nil]
  field_simp
  ring

/-- A cubic is its leading coefficient times a monic one. -/
theorem horner_cubic {a : K} (lead : a ≠ 0) (b c d x : K) :
    Poly.horner [a, b, c, d] x =
      a * Poly.horner (MonicCubic.mk (overLead a b) (overLead a c) (overLead a d)).coeffs x := by
  rw [MonicCubic.horner_coeffs, overLead_eq, overLead_eq, overLead_eq]
  simp only [Poly.horner, List.foldl_cons, List.foldl_nil]
  field_simp
  ring

end LeadingCoefficient

variable [Scalar R] [Coefficient K R] [ExactArithmetic K]

/-- The factors that a primitive cube root of one makes of a sum of two cubes. -/
theorem sum_of_cubes_factors (t u v : K) :
    (t + omega * u + conj omega * v) * (t + conj omega * u + omega * v) =
      t ^ 2 - t * (u + v) + (u ^ 2 - u * v + v ^ 2) := by
  have sum : (1 : K) + omega + conj omega = 0 := omega_sum
  have product : (omega : K) * conj omega = 1 := omega_mul_conj
  linear_combination (t * (u + v) + u * v * (omega + conj omega - 1)) * sum +
    (u ^ 2 + v ^ 2 - 2 * (u * v)) * product

variable [CharZero K]

section Quadratic

variable {a b c : K}

/-- The root of the discriminant keeps its sign or changes it. -/
theorem chosenRoot_eq_or_eq_neg (a b c : K) :
    chosenRoot a b c = sqrt (b * b - 4 * (a * c)) ∨
      chosenRoot a b c = -sqrt (b * b - 4 * (a * c)) := by
  have four : mulReal (a * c) 4.0 = 4 * (a * c) := by
    simp only [mulReal_tenths, Nat.cast_ofNat]
    ring
  rw [← four]
  exact (chosenRoot_cases a b c).imp And.left And.left

/-- The sign that is chosen for the root of the discriminant only matters for accuracy. -/
theorem chosenRoot_squared (a b c : K) :
    chosenRoot a b c * chosenRoot a b c = b * b - 4 * (a * c) := by
  have squared : sqrt (b * b - 4 * (a * c)) * sqrt (b * b - 4 * (a * c)) =
      b * b - 4 * (a * c) := sqrt_squared _
  rcases chosenRoot_eq_or_eq_neg a b c with kept | changed
  · rw [kept, squared]
  · rw [changed, neg_mul_neg, squared]

/-- The sum that the first root is read off, and the difference that the second one would be. -/
theorem add_mul_sub_chosenRoot (a b c : K) :
    (b + chosenRoot a b c) * (b - chosenRoot a b c) = 4 * (a * c) := by
  linear_combination -chosenRoot_squared a b c

/-- Without a root at the origin the sum that the first root is read off does not vanish. -/
theorem add_chosenRoot_ne_zero (lead : a ≠ 0) (constant : c ≠ 0) : b + chosenRoot a b c ≠ 0 := by
  intro vanishes
  have product := add_mul_sub_chosenRoot a b c
  rw [vanishes, zero_mul] at product
  exact mul_ne_zero (by norm_num) (mul_ne_zero lead constant) product.symm

/-- The first root by the chosen root of the discriminant. -/
theorem firstRoot_eq (a b c : K) : firstRoot a b c = -(b + chosenRoot a b c) / (2 * a) := by
  have two : mulReal a 2.0 = 2 * a := by
    simp only [mulReal_tenths, Nat.cast_ofNat]
    ring
  rw [firstRoot, two]

/-- So the first root, by which the second one is divided, is not zero. -/
theorem firstRoot_ne_zero (lead : a ≠ 0) (constant : c ≠ 0) : firstRoot a b c ≠ 0 := by
  rw [firstRoot_eq]
  exact div_ne_zero (neg_ne_zero.mpr (add_chosenRoot_ne_zero lead constant))
    (mul_ne_zero two_ne_zero lead)

/-- The second root is the one with the other sign of the root of the discriminant. -/
theorem secondRoot_eq (lead : a ≠ 0) (constant : c ≠ 0) :
    c / (a * firstRoot a b c) = (chosenRoot a b c - b) / (2 * a) := by
  have divisor := add_chosenRoot_ne_zero (b := b) lead constant
  rw [firstRoot_eq]
  field_simp
  linear_combination add_mul_sub_chosenRoot a b c

/-- Either root of the discriminant leads to both roots of a quadratic. -/
theorem rootProduct_quadratic (lead : a ≠ 0) (constant : c ≠ 0) (x : K) :
    a * rootProduct [firstRoot a b c, c / (a * firstRoot a b c)] x = Poly.horner [a, b, c] x := by
  rw [secondRoot_eq lead constant, firstRoot_eq]
  simp only [rootProduct_cons, rootProduct_nil, Poly.horner, List.foldl_cons, List.foldl_nil]
  field_simp
  linear_combination add_mul_sub_chosenRoot a b c

end Quadratic

namespace MonicCubic

variable (cubic : MonicCubic K)

/-- `D₀`, with the literals as numbers. -/
theorem D₀_eq : cubic.D₀ = cubic.b ^ 2 - 3 * cubic.c := by
  simp only [D₀, mulReal_tenths, Nat.cast_ofNat]
  ring

/-- `D₁`, with the literals as numbers. -/
theorem D₁_eq : cubic.D₁ = 2 * cubic.b ^ 3 - 9 * (cubic.b * cubic.c) + 27 * cubic.d := by
  simp only [D₁, mulReal_tenths, Nat.cast_ofNat]
  ring

/-- The discriminant by `D₀` and `D₁`. -/
theorem discriminant_eq : cubic.discriminant = cubic.D₁ ^ 2 - 4 * cubic.D₀ ^ 3 := by
  simp only [discriminant, mulReal_tenths, Nat.cast_ofNat]
  ring

/-- The triple root is a third of the sum of the roots. -/
theorem tripleRoot_eq : cubic.tripleRoot = -cubic.b / 3 := by
  simp only [tripleRoot, divReal_tenths, Nat.cast_ofNat]
  ring

/-- The double root, with the literals as numbers. -/
theorem doubleRoot_eq :
    cubic.doubleRoot = (9 * cubic.d - cubic.b * cubic.c) / (2 * cubic.D₀) := by
  simp only [doubleRoot, mulReal_tenths, Nat.cast_ofNat]
  ring

/-- The root beside it, with the literals as numbers. -/
theorem simpleRoot_eq : cubic.simpleRoot =
    (4 * (cubic.b * cubic.c) - 9 * cubic.d - cubic.b ^ 3) / cubic.D₀ := by
  simp only [simpleRoot, mulReal_tenths, Nat.cast_ofNat]
  ring

/-- The root that a cube root leads to, with the literals as numbers. -/
theorem rootOf_eq (u : K) : cubic.rootOf u = -(cubic.b + u + cubic.D₀ / u) / 3 := by
  simp only [rootOf, divReal_tenths, Nat.cast_ofNat]
  ring

/-- The elementary symmetric sums of the roots are the coefficients up to sign. -/
theorem sums_of_rootProduct {x₁ x₂ x₃ : K}
    (product : ∀ x, 1 * rootProduct [x₁, x₂, x₃] x = Poly.horner cubic.coeffs x) :
    x₁ + x₂ + x₃ = -cubic.b ∧ x₁ * x₂ + x₁ * x₃ + x₂ * x₃ = cubic.c ∧
      x₁ * x₂ * x₃ = -cubic.d := by
  have value (x : K) : (x - x₁) * ((x - x₂) * (x - x₃)) =
      x ^ 3 + cubic.b * x ^ 2 + cubic.c * x + cubic.d := by
    have atPoint := product x
    rw [horner_coeffs] at atPoint
    simpa only [rootProduct_cons, rootProduct_nil, one_mul, mul_one] using atPoint
  have atZero := value 0
  have atOne := value 1
  have atMinusOne := value (-1)
  refine ⟨?_, ?_, ?_⟩
  · linear_combination atZero - (atOne + atMinusOne) / 2
  · linear_combination (atOne - atMinusOne) / 2
  · linear_combination -atZero

/-- The discriminant is the square of the differences of the roots, times `-27`. -/
theorem discriminant_eq_differences {x₁ x₂ x₃ : K}
    (product : ∀ x, 1 * rootProduct [x₁, x₂, x₃] x = Poly.horner cubic.coeffs x) :
    cubic.discriminant = -(27 * ((x₁ - x₂) * (x₁ - x₃) * (x₂ - x₃)) ^ 2) := by
  obtain ⟨sum, pairs, triple⟩ := cubic.sums_of_rootProduct product
  have b : cubic.b = -(x₁ + x₂ + x₃) := by rw [sum, neg_neg]
  have d : cubic.d = -(x₁ * x₂ * x₃) := by rw [triple, neg_neg]
  rw [discriminant_eq, D₀_eq, D₁_eq, b, ← pairs, d]
  ring

/-- The roots are distinct exactly if the discriminant is not zero. -/
theorem discriminant_ne_zero_iff {x₁ x₂ x₃ : K}
    (product : ∀ x, 1 * rootProduct [x₁, x₂, x₃] x = Poly.horner cubic.coeffs x) :
    cubic.discriminant ≠ 0 ↔ [x₁, x₂, x₃].Nodup := by
  rw [cubic.discriminant_eq_differences product, neg_ne_zero,
    mul_ne_zero_iff_left (by norm_num : (27 : K) ≠ 0), pow_ne_zero_iff two_ne_zero, mul_ne_zero_iff,
    mul_ne_zero_iff, sub_ne_zero, sub_ne_zero, sub_ne_zero]
  simp

/-- Where the discriminant and `D₀` vanish there is a triple root. -/
theorem rootProduct_tripleRoot (multiple : cubic.discriminant = 0) (triple : cubic.D₀ = 0) (x : K) :
    1 * rootProduct [cubic.tripleRoot, cubic.tripleRoot, cubic.tripleRoot] x =
      Poly.horner cubic.coeffs x := by
  have vanishes : cubic.D₁ = 0 := by
    rw [discriminant_eq, triple] at multiple
    exact pow_eq_zero_iff (two_ne_zero) |>.mp (by linear_combination multiple)
  rw [D₀_eq] at triple
  rw [D₁_eq] at vanishes
  apply cubic.rootProduct_of_sums
  · rw [tripleRoot_eq]
    ring
  · rw [tripleRoot_eq]
    linear_combination triple / 3
  · rw [tripleRoot_eq]
    linear_combination vanishes / 27 - cubic.b * triple / 9

/-- The quotient that the double root is. -/
theorem two_mul_D₀_mul_doubleRoot (double : cubic.D₀ ≠ 0) :
    2 * cubic.D₀ * cubic.doubleRoot = 9 * cubic.d - cubic.b * cubic.c := by
  rw [doubleRoot_eq]
  field_simp

/-- The double root and the simple one have the sum that the roots have. -/
theorem simpleRoot_eq_sub (double : cubic.D₀ ≠ 0) :
    cubic.simpleRoot = -cubic.b - 2 * cubic.doubleRoot := by
  have D₀Eq := cubic.D₀_eq
  rw [simpleRoot_eq, doubleRoot_eq]
  field_simp
  rw [D₀Eq]
  ring

/-- Where the double root is defined, `D₀` divides `D₁`. -/
theorem D₁_eq_mul_D₀ (double : cubic.D₀ ≠ 0) :
    cubic.D₁ = (2 * cubic.b + 6 * cubic.doubleRoot) * cubic.D₀ := by
  have doubled := cubic.two_mul_D₀_mul_doubleRoot double
  rw [D₁_eq]
  linear_combination -3 * doubled - 2 * cubic.b * cubic.D₀_eq

/-- Where the discriminant vanishes and `D₀` does not, there are a double root and a simple one. -/
theorem rootProduct_doubleRoot (multiple : cubic.discriminant = 0) (double : cubic.D₀ ≠ 0) (x : K) :
    1 * rootProduct [cubic.doubleRoot, cubic.doubleRoot, cubic.simpleRoot] x =
      Poly.horner cubic.coeffs x := by
  have D₀Eq := cubic.D₀_eq
  have D₁Eq := cubic.D₁_eq_mul_D₀ double
  have doubled := cubic.two_mul_D₀_mul_doubleRoot double
  have simple := cubic.simpleRoot_eq_sub double
  rw [discriminant_eq] at multiple
  -- The double root is a root of the derivative.
  have derivative : 3 * cubic.doubleRoot ^ 2 + 2 * cubic.b * cubic.doubleRoot + cubic.c = 0 := by
    have scaled : cubic.D₀ ^ 2 *
        (3 * cubic.doubleRoot ^ 2 + 2 * cubic.b * cubic.doubleRoot + cubic.c) = 0 := by
      linear_combination multiple / 12 + cubic.D₀ ^ 2 * D₀Eq / 3 -
        (cubic.D₁ + 2 * cubic.b * cubic.D₀ + 6 * cubic.D₀ * cubic.doubleRoot) * D₁Eq / 12
    exact (mul_eq_zero.mp scaled).resolve_left (pow_ne_zero 2 double)
  apply cubic.rootProduct_of_sums
  · rw [simple]
    ring
  · rw [simple]
    linear_combination -derivative
  · rw [simple]
    linear_combination ((cubic.b - 6 * cubic.doubleRoot) * derivative +
      2 * cubic.doubleRoot * D₀Eq - doubled) / 9

/-- Both candidates for twice a cube can only be zero where the discriminant is, so the larger one
is zero only there. -/
theorem candidate_ne_zero (simple : cubic.discriminant ≠ 0) {root : K}
    (squared : root * root = cubic.discriminant)
    (larger : abs (cubic.D₁ - root) ≤ abs (cubic.D₁ + root)) : cubic.D₁ + root ≠ 0 := by
  intro vanishes
  rw [vanishes] at larger
  have otherVanishes : cubic.D₁ - root = 0 := eq_zero_of_abs_le larger
  have noRoot : root = 0 := by linear_combination (vanishes - otherVanishes) / 2
  rw [noRoot, mul_zero] at squared
  exact simple squared.symm

/-- The larger candidate is chosen, which is not zero where the discriminant is not. -/
theorem largerCandidate_spec : ∃ root, root * root = cubic.discriminant ∧
    cubic.largerCandidate = cubic.D₁ + root ∧ (cubic.discriminant ≠ 0 → cubic.D₁ + root ≠ 0) := by
  have squared : sqrt cubic.discriminant * sqrt cubic.discriminant = cubic.discriminant :=
    sqrt_squared _
  unfold largerCandidate
  by_cases plusLarger :
      abs (cubic.D₁ - sqrt cubic.discriminant) ≤ abs (cubic.D₁ + sqrt cubic.discriminant)
  · exact ⟨sqrt cubic.discriminant, squared, if_pos plusLarger,
      fun simple => cubic.candidate_ne_zero simple squared plusLarger⟩
  · refine ⟨-sqrt cubic.discriminant, by rw [neg_mul_neg, squared],
      (if_neg plusLarger).trans (sub_eq_add_neg _ _), ?_⟩
    intro _ minusVanishes
    rw [← sub_eq_add_neg] at minusVanishes
    rw [minusVanishes] at plusLarger
    exact plusLarger (abs_zero_le _)

/-- The chosen cube root is one of half a candidate, which is not zero where the discriminant is
not. -/
theorem cbrt_largerCandidate_spec : ∃ root, root * root = cubic.discriminant ∧
    cbrt (mulReal cubic.largerCandidate 0.5) * cbrt (mulReal cubic.largerCandidate 0.5) *
      cbrt (mulReal cubic.largerCandidate 0.5) = (cubic.D₁ + root) / 2 ∧
    (cubic.discriminant ≠ 0 → cubic.D₁ + root ≠ 0) := by
  obtain ⟨root, squared, larger, nonzero⟩ := cubic.largerCandidate_spec
  refine ⟨root, squared, ?_, nonzero⟩
  rw [cbrt_cubed, larger]
  simp only [mulReal_tenths, Nat.cast_ofNat]
  ring

omit [ExactArithmetic K] in
variable {cubic} in
/-- A cube root of half a candidate that is not zero is not zero. -/
theorem ne_zero_of_cubed {root C : K} (cubed : C * C * C = (cubic.D₁ + root) / 2)
    (nonzero : cubic.D₁ + root ≠ 0) : C ≠ 0 := by
  rintro rfl
  rw [mul_zero] at cubed
  exact nonzero (by linear_combination -2 * cubed)

/-- The values that the three cube roots of half a candidate lead to are the roots. -/
theorem rootProduct_cardano {root C : K} (squared : root * root = cubic.discriminant)
    (cubed : C * C * C = (cubic.D₁ + root) / 2) (nonzero : cubic.D₁ + root ≠ 0) (x : K) :
    1 * rootProduct ([C, omega * C, conj omega * C].map cubic.rootOf) x =
      Poly.horner cubic.coeffs x := by
  have CNonzero : C ≠ 0 := ne_zero_of_cubed cubed nonzero
  obtain ⟨v, Cv⟩ : ∃ v, C * v = cubic.D₀ := ⟨cubic.D₀ / C, by field_simp⟩
  have cubes : C ^ 3 + v ^ 3 = cubic.D₁ := by
    refine mul_left_cancel₀ nonzero ?_
    rw [discriminant_eq] at squared
    have scaled : (cubic.D₁ + root) * v ^ 3 = 2 * cubic.D₀ ^ 3 := by
      rw [← Cv]
      linear_combination -2 * v ^ 3 * cubed
    linear_combination scaled + (cubic.D₁ + root) * cubed + squared / 2
  have quotient : cubic.D₀ / C = v := by
    rw [← Cv]
    field_simp
  have factors := sum_of_cubes_factors (3 * x + cubic.b) C v
  rw [D₀_eq] at Cv
  rw [D₁_eq] at cubes
  rw [horner_coeffs]
  simp only [List.map_cons, List.map_nil, rootOf_eq, div_omega_mul, div_conj_omega_mul, quotient,
    rootProduct_cons, rootProduct_nil]
  linear_combination (3 * x + cubic.b + C + v) / 27 * factors + cubes / 27 -
    (3 * x + cubic.b) * Cv / 9

/-- Where the discriminant does not vanish, the formula by cube roots gives the roots. -/
theorem rootProduct_cardanoRoots (simple : cubic.discriminant ≠ 0) (x : K) :
    1 * rootProduct cubic.cardanoRoots x = Poly.horner cubic.coeffs x := by
  obtain ⟨root, squared, cubed, nonzero⟩ := cubic.cbrt_largerCandidate_spec
  exact cubic.rootProduct_cardano squared cubed (nonzero simple) x

/-- The double root is not a triple one. -/
theorem doubleRoot_ne_simpleRoot (multiple : cubic.discriminant = 0) (double : cubic.D₀ ≠ 0) :
    cubic.doubleRoot ≠ cubic.simpleRoot := by
  intro same
  rw [cubic.simpleRoot_eq_sub double] at same
  have D₁Vanishes : cubic.D₁ = 0 := by
    rw [cubic.D₁_eq_mul_D₀ double]
    linear_combination 2 * cubic.D₀ * same
  rw [discriminant_eq, D₁Vanishes] at multiple
  exact double (pow_eq_zero_iff three_ne_zero |>.mp (by linear_combination -multiple / 4))

/-- Without a multiple root the formula by cube roots does not divide by zero. -/
theorem cbrt_largerCandidate_ne_zero (simple : cubic.discriminant ≠ 0) :
    (cbrt (mulReal cubic.largerCandidate 0.5) : K) ≠ 0 := by
  obtain ⟨root, _, cubed, nonzero⟩ := cubic.cbrt_largerCandidate_spec
  exact ne_zero_of_cubed cubed (nonzero simple)

/-- What a cubic reports and the values that it comes to, by its branches. -/
inductive Branch : List (Event K) → List K → Prop
  | triple (multiple : cubic.discriminant = 0) (triple : cubic.D₀ = 0) :
      Branch [.tripleRoot] [cubic.tripleRoot, cubic.tripleRoot, cubic.tripleRoot]
  | double (multiple : cubic.discriminant = 0) (double : cubic.D₀ ≠ 0)
      (apart : cubic.doubleRoot ≠ cubic.simpleRoot) :
      Branch [.doubleRoot] [cubic.doubleRoot, cubic.doubleRoot, cubic.simpleRoot]
  | simple (simple : cubic.discriminant ≠ 0)
      (divisor : (cbrt (mulReal cubic.largerCandidate 0.5) : K) ≠ 0)
      (apart : cubic.cardanoRoots.Nodup) :
      Branch [] cubic.cardanoRoots

variable [BEq K]

/-- A cubic takes one of its branches and gives the values of it, which multiply to the cubic. -/
theorem exists_branch : ∃ values, cubic.Branch cubic.roots.events values ∧
    cubic.roots.outcome = Bag.ofList values ∧ values.length = 3 ∧
      ∀ x, 1 * rootProduct values x = Poly.horner cubic.coeffs x := by
  unfold roots
  split
  · next multiple =>
    have vanishes := (isNegligible_iff _).mp multiple
    split
    · next triple =>
      have triple := (isNegligible_iff _).mp triple
      exact ⟨_, .triple vanishes triple, rfl, rfl, cubic.rootProduct_tripleRoot vanishes triple⟩
    · next double =>
      have double := isNegligible_eq_false_iff.mp (Bool.eq_false_of_not_eq_true double)
      exact ⟨_, .double vanishes double (cubic.doubleRoot_ne_simpleRoot vanishes double), rfl, rfl,
        cubic.rootProduct_doubleRoot vanishes double⟩
  · next simple =>
    have simple := isNegligible_eq_false_iff.mp (Bool.eq_false_of_not_eq_true simple)
    have product := cubic.rootProduct_cardanoRoots simple
    exact ⟨_, .simple simple (cubic.cbrt_largerCandidate_ne_zero simple)
      ((cubic.discriminant_ne_zero_iff product).mp simple), rfl, rfl, product⟩

variable [LawfulBEq K]

/-- Each branch of a cubic gives its roots. -/
theorem solves_roots : Solves cubic.roots 1 cubic.coeffs := by
  obtain ⟨values, _, finished, length, product⟩ := cubic.exists_branch
  have short : values.length ≤ 4 := by omega
  obtain ⟨bag, built, same⟩ := solvesTo_ofList short
  exact Solves.of_values ⟨bag, finished.trans built, same⟩ product

end MonicCubic

variable [BEq K] [LawfulBEq K]

/-- The formula for degree two gives both roots, if there is a constant term. -/
theorem solves_quadratic {a b c : K} (lead : a ≠ 0) (constant : c ≠ 0) :
    Solves (quadratic a b c) a [a, b, c] := by
  rw [quadratic_eq]
  exact Solves.of_values (solvesTo_ofList (by simp)) (rootProduct_quadratic lead constant)

/-- The formula for degree three gives the three roots. -/
theorem solves_cubic {a b c d : K} (lead : a ≠ 0) : Solves (cubic a b c d) a [a, b, c, d] := by
  obtain ⟨bag, finished, product⟩ :=
    MonicCubic.solves_roots ⟨overLead a b, overLead a c, overLead a d⟩
  refine ⟨bag, finished, ?_⟩
  intro x
  rw [horner_cubic lead, ← product, one_mul]

section Dispatch

variable {quartic : K → K → K → K → K → Reported K (Bag K)}

/-- Up to degree three the dispatch gives the roots of a core. -/
theorem solves_solveCore {lead : K} {rest : List K} (tight : Tight (lead :: rest))
    (short : rest.length ≤ 3) : Solves (solveCore quartic (lead :: rest)) lead (lead :: rest) := by
  have leadNonzero : lead ≠ 0 := by
    obtain ⟨_, _, shape, kept⟩ := tight.first
    rw [(List.cons.inj shape).1]
    exact isNegligible_eq_false_iff.mp kept
  match rest with
  | [] =>
      refine ⟨∅, rfl, ?_⟩
      intro x
      simp [Poly.horner]
  | [b] => exact solves_linear leadNonzero
  | [b, c] =>
      apply solves_quadratic leadNonzero
      obtain ⟨init, final, shape, kept⟩ := tight.last
      have isFinal : c = final := by simpa using congrArg List.getLast? shape
      rw [isFinal]
      exact isNegligible_eq_false_iff.mp kept
  | [b, c, d] => exact solves_cubic leadNonzero
  | _ :: _ :: _ :: _ :: rest =>
      simp only [List.length_cons] at short
      omega

/-- A monic polynomial of degree three or less is solved, its roots at the origin included. -/
theorem solves_solveCubic {rest : List K} (short : rest.length ≤ 3) :
    Solves (solveCubic (1 :: rest)) 1 (1 :: rest) := by
  obtain ⟨others, core, parts⟩ := exists_monic_split rest
  have tight := tight_core (substantial_one_cons rest)
  have lengths := congrArg List.length parts
  simp only [List.length_cons, List.length_append, List.length_replicate] at lengths
  rw [core] at tight
  obtain ⟨roots, found, product⟩ := solves_solveCore tight (by omega)
  obtain ⟨bag, finished, _⟩ := yields_solveCubic short
  refine ⟨bag, finished, ?_⟩
  rw [solveCubic, outcome_solveReduced, core, found, ok_bind] at finished
  intro x
  have zerosBehind : Poly.horner (1 :: rest) x =
      Poly.horner (1 :: others) x * x ^ (ofCoeffs (1 :: rest)).zeros := by
    have nothing : Poly.horner (List.replicate (ofCoeffs (1 :: rest)).zeros 0) x = 0 :=
      Poly.horner_eq_zero (fun c member => List.eq_of_mem_replicate member) x
    conv_lhs => rw [parts]
    rw [Poly.horner_append, List.length_replicate, nothing, add_zero]
  rw [rootProduct_insertMany_zero finished, zerosBehind, ← product]
  ring

end Dispatch

end RootFinding.ClosedForm
