import RootFinding.Proofs.ClosedForm.Totals
import RootFinding.Proofs.ClosedForm.Divisors

/-!
# The values that a closed form comes to

A cubic has three branches, and a monic one keeps as many of its coefficients as come before the
negligible ones at its end: the formula for what remains gives some of the roots, and the others are
zero. In each case the values that end up in the bag are written down here, for any arithmetic in
which `==` is equality.
-/

namespace RootFinding.ClosedForm

open Bag Coefficient Outcome Reduction

variable {K R : Type}

/-- A computation ends in the bag of these values. -/
def SolvesTo (computation : Reported K (Bag K)) (values : List K) : Prop :=
  EndsIn computation fun bag => bag.toList.Perm values

/-- A short list is solved by its values. -/
theorem solvesTo_ofList [BEq K] [LawfulBEq K] {values : List K} (short : values.length ≤ 4) :
    SolvesTo (Bag.ofList values) values := by
  obtain ⟨bag, built⟩ := exists_ofList (le_countLimit short)
  exact ⟨bag, built, toList_ofList built⟩

/-- A leading coefficient of one leaves the others as they are. -/
theorem overLead_one [One K] [Div K] [BEq K] [LawfulBEq K] (c : K) : overLead 1 c = c :=
  if_pos (beq_self_eq_true 1)

section Monic

variable [Zero K] [One K] [BEq K] [Coefficient K R] [StandardConstants K]

/-- The constant one has no negligible coefficient at either end. -/
theorem tight_one : Tight [(1 : K)] where
  first := ⟨1, [], rfl, StandardConstants.isNegligible_one⟩
  last := ⟨[], 1, rfl, StandardConstants.isNegligible_one⟩

/-- Neither has a monic list that ends in a coefficient that is not negligible. -/
theorem tight_one_append (init : List K) {final : K} (kept : isNegligible final = false) :
    Tight (1 :: init ++ [final]) where
  first := ⟨1, init ++ [final], rfl, StandardConstants.isNegligible_one⟩
  last := ⟨1 :: init, final, rfl, kept⟩

end Monic

section Branches

variable [Add K] [Sub K] [Neg K] [Mul K] [Div K] [BEq K] [Scalar R] [Coefficient K R]
  (cubic : MonicCubic K)

/-- The branches for multiple roots say so, and the discriminant alone decides about them. -/
theorem MonicCubic.reports_multiple_iff :
    .tripleRoot ∈ cubic.roots.events ∨ .doubleRoot ∈ cubic.roots.events ↔
      isNegligible cubic.discriminant = true := by
  unfold MonicCubic.roots
  split
  · next multiple =>
    refine iff_of_true ?_ multiple
    split
    · exact Or.inl List.mem_cons_self
    · exact Or.inr List.mem_cons_self
  · next simple =>
    refine iff_of_false ?_ simple
    rintro (triple | double)
    · exact List.not_mem_nil triple
    · exact List.not_mem_nil double

variable [LawfulBEq K]

/-- Where the discriminant and `D₀` are negligible, a monic cubic has one root three times. -/
theorem MonicCubic.solvesTo_of_triple (multiple : isNegligible cubic.discriminant = true)
    (triple : isNegligible cubic.D₀ = true) :
    SolvesTo cubic.roots [cubic.tripleRoot, cubic.tripleRoot, cubic.tripleRoot] := by
  rw [MonicCubic.roots, if_pos multiple, if_pos triple]
  exact (solvesTo_ofList (by simp)).report _

/-- Where only the discriminant is negligible, it has a double root and a simple one. -/
theorem MonicCubic.solvesTo_of_double (multiple : isNegligible cubic.discriminant = true)
    (double : isNegligible cubic.D₀ = false) :
    SolvesTo cubic.roots [cubic.doubleRoot, cubic.doubleRoot, cubic.simpleRoot] := by
  rw [MonicCubic.roots, if_pos multiple, if_neg (by simp [double])]
  exact (solvesTo_ofList (by simp)).report _

/-- Where the discriminant is not negligible, it has the roots by Cardano's formula. -/
theorem MonicCubic.solvesTo_of_simple (simple : isNegligible cubic.discriminant = false) :
    SolvesTo cubic.roots cubic.cardanoRoots := by
  rw [MonicCubic.roots, if_neg (by simp [simple])]
  exact solvesTo_ofList (by simp [MonicCubic.cardanoRoots])

/-- With a negligible discriminant some root is there twice. -/
theorem MonicCubic.exists_solvesTo_of_multiple (multiple : isNegligible cubic.discriminant = true) :
    ∃ u v, SolvesTo cubic.roots [u, u, v] := by
  cases triple : isNegligible cubic.D₀ with
  | true => exact ⟨_, _, cubic.solvesTo_of_triple multiple triple⟩
  | false => exact ⟨_, _, cubic.solvesTo_of_double multiple triple⟩

end Branches

variable [Zero K] [One K] [Add K] [Sub K] [Neg K] [Mul K] [Div K] [BEq K] [Scalar R]
  [Coefficient K R]

/-- A cubic without roots at the origin has the roots of the monic one. -/
theorem solvesTo_solve_of_cubic (order : TableOrder K) {a b c d : K} (tight : Tight [a, b, c, d])
    {values : List K}
    (solves : SolvesTo (MonicCubic.roots ⟨overLead a b, overLead a c, overLead a d⟩) values) :
    SolvesTo (solve order [a, b, c, d]) values := by
  obtain ⟨bag, finished, same⟩ := solves
  refine ⟨bag, ?_, same⟩
  rw [solve, outcome_solveReduced_of_tight tight]
  exact finished

variable [LawfulBEq K]

/-- The values of the core, and zero for each root at the origin. -/
theorem solvesTo_solveReduced {quartic : K → K → K → K → K → Reported K (Bag K)}
    {coeffs values : List K} (short : values.length + (ofCoeffs coeffs).zeros ≤ 4)
    (solves : SolvesTo (solveCore quartic (ofCoeffs coeffs).core) values) :
    SolvesTo (solveReduced quartic coeffs)
      (values ++ List.replicate (ofCoeffs coeffs).zeros 0) := by
  obtain ⟨roots, found, same⟩ := solves
  have total := same.length_eq
  rw [length_toList] at total
  obtain ⟨bag, inserted⟩ := exists_insertMany roots 0 (n := (ofCoeffs coeffs).zeros)
    (le_countLimit (by omega))
  refine ⟨bag, ?_, ?_⟩
  · rw [outcome_solveReduced, found, ok_bind, inserted]
  · exact (toList_insertMany inserted).trans
      ((same.append_left _).trans List.perm_append_comm)

/-- A quadratic with roots at the origin. -/
theorem solvesTo_solve_of_quadratic (order : TableOrder K) {coeffs : List K} {a b c : K}
    (shape : (ofCoeffs coeffs).core = [a, b, c]) (short : (ofCoeffs coeffs).zeros ≤ 2) :
    SolvesTo (solve order coeffs) ([firstRoot a b c, c / (a * firstRoot a b c)] ++
      List.replicate (ofCoeffs coeffs).zeros 0) := by
  apply solvesTo_solveReduced
  · rw [List.length_cons, List.length_singleton]
    omega
  · rw [shape, solveCore, quadratic_eq]
    exact solvesTo_ofList (by simp)

/-- The values of a core, and zero for each negligible coefficient behind it. -/
theorem solvesTo_solveCubic {core values : List K} (tight : Tight core) (back : List K)
    (negligible : ∀ c ∈ back, isNegligible c = true)
    (short : values.length + back.length ≤ 4)
    (solves : ∀ quartic, SolvesTo (solveCore quartic core) values) :
    SolvesTo (solveCubic (core ++ back)) (values ++ List.replicate back.length 0) := by
  obtain ⟨sameCore, zeros⟩ := ofCoeffs_split [] back tight (by simp) negligible
  rw [List.nil_append] at sameCore zeros
  rw [← zeros]
  apply solvesTo_solveReduced
  · rw [zeros]
    exact short
  · rw [sameCore]
    exact solves _

namespace MonicCubic

variable [StandardConstants K] (cubic : MonicCubic K)

/-- With no other coefficient left, all roots of a monic cubic are zero. -/
theorem solvesTo_of_allNegligible (b : isNegligible cubic.b = true)
    (c : isNegligible cubic.c = true) (d : isNegligible cubic.d = true) :
    SolvesTo (solveCubic cubic.coeffs) [0, 0, 0] := by
  have parts : cubic.coeffs = [1] ++ [cubic.b, cubic.c, cubic.d] := rfl
  have noRoots (quartic) : SolvesTo (solveCore quartic [(1 : K)]) [] :=
    ⟨∅, rfl, by simp⟩
  rw [parts]
  exact solvesTo_solveCubic tight_one _ (by simp [b, c, d]) (by simp) noRoots

/-- With one coefficient left, one root is that of a linear polynomial. -/
theorem solvesTo_of_linear (b : isNegligible cubic.b = false) (c : isNegligible cubic.c = true)
    (d : isNegligible cubic.d = true) : SolvesTo (solveCubic cubic.coeffs) [-cubic.b, 0, 0] := by
  have parts : cubic.coeffs = [1, cubic.b] ++ [cubic.c, cubic.d] := rfl
  have linearRoot (quartic) : SolvesTo (solveCore quartic [1, cubic.b]) [-cubic.b] := by
    rw [solveCore, linear, overLead_one]
    exact solvesTo_ofList (by simp)
  rw [parts]
  exact solvesTo_solveCubic (tight_one_append [] b) _ (by simp [c, d]) (by simp) linearRoot

/-- With two coefficients left, two roots are those of a quadratic. -/
theorem solvesTo_of_quadratic (c : isNegligible cubic.c = false) (d : isNegligible cubic.d = true) :
    SolvesTo (solveCubic cubic.coeffs)
      [firstRoot 1 cubic.b cubic.c, cubic.c / (1 * firstRoot 1 cubic.b cubic.c), 0] := by
  have parts : cubic.coeffs = [1, cubic.b, cubic.c] ++ [cubic.d] := rfl
  have twoRoots (quartic) : SolvesTo (solveCore quartic [1, cubic.b, cubic.c])
      [firstRoot 1 cubic.b cubic.c, cubic.c / (1 * firstRoot 1 cubic.b cubic.c)] := by
    rw [solveCore, quadratic_eq]
    exact solvesTo_ofList (by simp)
  rw [parts]
  exact solvesTo_solveCubic (tight_one_append [cubic.b] c) _ (by simp [d]) (by simp) twoRoots

/-- With a constant term the branches of the cubic apply. -/
theorem solvesTo_of_kept (d : isNegligible cubic.d = false) {values : List K}
    (solves : SolvesTo cubic.roots values) : SolvesTo (solveCubic cubic.coeffs) values := by
  have parts : cubic.coeffs = [1, cubic.b, cubic.c, cubic.d] ++ [] := rfl
  have short : values.length ≤ 4 := by
    obtain ⟨bag, finished, same⟩ := solves
    have three := cubic.yields_roots.total finished
    rw [← same.length_eq, length_toList, three]
    omega
  rw [parts, ← List.append_nil values]
  refine solvesTo_solveCubic (tight_one_append [cubic.b, cubic.c] d) [] (by simp) (by simpa) ?_
  intro quartic
  change SolvesTo (roots ⟨overLead 1 cubic.b, overLead 1 cubic.c, overLead 1 cubic.d⟩) values
  rw [overLead_one, overLead_one, overLead_one]
  exact solves

end MonicCubic

end RootFinding.ClosedForm
