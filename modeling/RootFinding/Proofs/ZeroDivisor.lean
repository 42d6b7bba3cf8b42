import RootFinding.Proofs.Tolerance.Divisors
import RootFinding.Search

/-!
# Closed forms that divide by zero

A closed form is meant to divide by nothing that is zero: a division by zero would go unnoticed, as
a root that is not a number in a report of success. The reduction removes negligible coefficients at
both ends, the sign in the formula for a quadratic avoids cancellation, and a cubic takes the larger
of two candidates. Within the tolerance there is one exception, and it comes from the square root,
which takes a number close to the positive axis for real: a quadratic `a x² + c` whose product `a c`
is on the imaginary axis and close to zero loses its first root to zero, and its second is `c / 0`.
-/

namespace RootFinding

open ClosedForm Coefficient Reduction Tolerant

/-- What a closed form divides by, for exact numbers with a tolerance, in whatever order a table is
walked. The divisors that are listed are all that there are. One of them is zero exactly for a
quadratic without a linear term for which the product of the two other coefficients is on the
imaginary axis and, times four, within the tolerance; and then the result depends on what dividing
by zero gives. -/
theorem solve_divides_by_zero_iff {tolerance : ℝ} (positive : 0 < tolerance)
    (small : tolerance ≤ 1) (order : Bag.TableOrder (Complex (Tolerant tolerance)))
    {coeffs : List (Complex (Tolerant tolerance))} (substantial : Substantial coeffs)
    (short : coeffs.length ≤ 5) :
    DividesBy (divisors order coeffs) (solve order coeffs) ∧
      (0 ∈ divisors order coeffs ↔ ∃ a c, (ofCoeffs coeffs).core = [a, 0, c] ∧
        (toField (a * c)).re = 0 ∧ 4 * |(toField (a * c)).im| < tolerance) ∧
      (0 ∈ divisors order coeffs ↔
        DependsOnZeroDivision (Complex (Tolerant tolerance)) (solve order coeffs)) := by
  have : StandardConstants (Complex (Tolerant tolerance)) := standardConstants small
  have divides : DividesBy (divisors order coeffs) (solve order coeffs) :=
    dividesBy_solve order coeffs
  refine ⟨divides, zero_mem_divisors_iff_small positive order substantial, ?_, ?_⟩
  · intro divided
    obtain ⟨a, b, c, shape, vanishes⟩ :=
      (zero_mem_divisors_iff positive order substantial).mp divided
    obtain ⟨lead, rest, leading, kept⟩ := (tight_core substantial).first
    obtain rfl : a = lead := (List.cons.inj (shape.symm.trans leading)).1
    have zeros : (ofCoeffs coeffs).zeros ≤ 2 := by
      have parts := length_core_add_zeros substantial
      have trimmed := (List.dropWhile_suffix isNegligible (l := coeffs)).length_le
      rw [shape, List.length_cons, List.length_cons, List.length_singleton] at parts
      omega
    exact dependsOnZeroDivision_of_firstRoot order shape zeros
      (ne_zero_of_kept positive kept) vanishes
  · intro depends
    by_contra nonzero
    exact divides.not_dependsOnZeroDivision nonzero depends

/-- A complex number with a tolerance, by its parts. -/
def ofExactParts (tolerance x y : ℝ) : Complex (Tolerant tolerance) := ⟨x, y⟩

/-- It stands for the number with these parts. -/
theorem toField_ofExactParts (tolerance x y : ℝ) :
    toField (ofExactParts tolerance x y) = ⟨x, y⟩ := rfl

/-- The polynomial `lead x² + constant i`. -/
noncomputable def exactRotatedSquare (tolerance lead constant : ℝ) :
    List (Complex (Tolerant tolerance)) :=
  [ofExactParts tolerance lead 0, 0, ofExactParts tolerance 0 constant]

/-- A coefficient of `lead x² + constant i` at either end is not negligible if it is not small. -/
theorem tight_exactRotatedSquare {tolerance lead constant : ℝ} (leadLarge : tolerance ≤ |lead|)
    (constantLarge : tolerance ≤ |constant|) :
    Tight (exactRotatedSquare tolerance lead constant) where
  first := by
    refine ⟨_, _, rfl, Bool.eq_false_iff.mpr ?_⟩
    rw [ne_eq, isNegligible_iff]
    exact fun ⟨smaller, _⟩ => absurd smaller (not_lt.mpr leadLarge)
  last := by
    refine ⟨[_, _], _, rfl, Bool.eq_false_iff.mpr ?_⟩
    rw [ne_eq, isNegligible_iff]
    exact fun ⟨_, smaller⟩ => absurd smaller (not_lt.mpr constantLarge)

/-- With a leading coefficient of one nothing goes wrong: the constant term of `x² + 2⁻³⁰ i` is too
far from zero. -/
theorem solve_divides_by_nonzero_rotatedSquare :
    0 ∉ divisors .asStored (exactRotatedSquare (1 / 2 ^ 52) 1 (1 / 2 ^ 30)) ∧
      ¬DependsOnZeroDivision (Complex (Tolerant (1 / 2 ^ 52)))
        (solve .asStored (exactRotatedSquare (1 / 2 ^ 52) 1 (1 / 2 ^ 30))) := by
  have tight : Tight (exactRotatedSquare (1 / 2 ^ 52) 1 (1 / 2 ^ 30)) :=
    tight_exactRotatedSquare (by norm_num) (by norm_num)
  obtain ⟨_, zeroIff, dependsIff⟩ := solve_divides_by_zero_iff (by norm_num) (by norm_num) .asStored
    tight.substantial (by simp [exactRotatedSquare])
  have nonzero : 0 ∉ divisors .asStored (exactRotatedSquare (1 / 2 ^ 52) 1 (1 / 2 ^ 30)) := by
    rw [zeroIff, (ofCoeffs_of_tight tight).1]
    rintro ⟨a, c, shape, _, near⟩
    obtain ⟨rfl, rfl⟩ : ofExactParts (1 / 2 ^ 52) 1 0 = a ∧
        ofExactParts (1 / 2 ^ 52) 0 (1 / 2 ^ 30) = c := by
      simpa [exactRotatedSquare] using shape
    rw [toField_mul, toField_ofExactParts, toField_ofExactParts, Complex.mul_im] at near
    norm_num at near
  exact ⟨nonzero, dependsIff.not.mp nonzero⟩

/-- The polynomial `2⁻³⁰ x² + 2⁻³⁰ i` in hardware numbers. -/
def rotatedSquare : Poly (Complex Float) where
  coeffs := [⟨9.31322574615478515625e-10, 0⟩, 0, ⟨0, 9.31322574615478515625e-10⟩]
  nonempty := by simp

/-- A search that reports success with a root that is not a number. -/
def succeedsWithNaN (outcome : Except Error (Report (Complex Float))) : Bool :=
  match outcome with
  | .ok report => report.converged && report.roots.toList.any Complex.isNaN
  | .error _ => false

/-- Without rounding, the closed form for `2⁻³⁰ x² + 2⁻³⁰ i` divides by zero, although the
coefficients at both ends are above the tolerance; in hardware numbers a search for its roots
succeeds with one that is not a number. -/
theorem solve_divides_by_zero_rotatedSquare :
    (Substantial (exactRotatedSquare (1 / 2 ^ 52) (1 / 2 ^ 30) (1 / 2 ^ 30)) ∧
      (exactRotatedSquare (1 / 2 ^ 52) (1 / 2 ^ 30) (1 / 2 ^ 30)).length ≤ 5 ∧
      0 ∈ divisors .asStored (exactRotatedSquare (1 / 2 ^ 52) (1 / 2 ^ 30) (1 / 2 ^ 30))) ∧
    Poly.ofList? rotatedSquare.coeffs = .ok rotatedSquare ∧
      (∀ c ∈ rotatedSquare.coeffs, c.isFinite = true) ∧
        succeedsWithNaN (rotatedSquare.search {}).outcome = true := by
  have tight : Tight (exactRotatedSquare (1 / 2 ^ 52) (1 / 2 ^ 30) (1 / 2 ^ 30)) :=
    tight_exactRotatedSquare (by norm_num) (by norm_num)
  have : StandardConstants (Complex (Tolerant (1 / 2 ^ 52))) := standardConstants (by norm_num)
  refine ⟨⟨tight.substantial, by simp [exactRotatedSquare], ?_⟩, ?_, ?_, ?_⟩
  · rw [zero_mem_divisors_iff_small (by norm_num) .asStored tight.substantial,
      (ofCoeffs_of_tight tight).1]
    refine ⟨_, _, rfl, ?_, ?_⟩
    · rw [toField_mul, toField_ofExactParts, toField_ofExactParts, Complex.mul_re]
      norm_num
    · rw [toField_mul, toField_ofExactParts, toField_ofExactParts, Complex.mul_im]
      norm_num
  · refine Poly.ofList?_eq_ok_iff.mpr ⟨⟨_, List.mem_cons_self, ?_⟩, rfl⟩
    decide +kernel
  · exact List.all_eq_true.mp (by decide +kernel)
  · decide +kernel

end RootFinding
