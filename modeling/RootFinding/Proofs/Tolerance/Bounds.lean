import RootFinding.Proofs.Exact.ComplexField
import RootFinding.Proofs.Exact.Cubic

/-!
# Resolvents with three small divisors

The divisor of a root `y` of the resolvent is a square root of `p + 2 y`, and the resolvent begins
with `y³ + 5/2 p y²`. If `p + 2 y` is small for all three values that a formula for the resolvent
gives, then so is `p`, and so are the quantities that the formula divides by. The bounds here say
how small, for values by the formulas for a double root and for three roots.
-/

namespace RootFinding.ClosedForm.MonicCubic

open Coefficient ExactArithmetic

variable (cubic : MonicCubic ℂ) {p : ℂ} {ε : ℝ}

/-- If the formula for a double root gives small divisors, the constant term is small. -/
theorem norm_d_lt_of_doubleRoot (positive : 0 < ε) (small : ε ≤ 1 / 16) (b_eq : cubic.b = 5 / 2 * p)
    (double : cubic.D₀ ≠ 0) (multiple : ‖cubic.discriminant‖ < 2 * ε)
    (doubleSmall : ‖p + 2 * cubic.doubleRoot‖ < ε) (simpleSmall : ‖p + 2 * cubic.simpleRoot‖ < ε) :
    ‖cubic.d‖ < ε := by
  have doubled := cubic.two_mul_D₀_mul_doubleRoot double
  obtain ⟨T, T_eq⟩ : ∃ T, T = p + 2 * cubic.doubleRoot := ⟨_, rfl⟩
  rw [← T_eq] at doubleSmall
  -- The simple root is `-(b + 2 * doubleRoot)`, so that `p` is a combination of the two small sums.
  have pSmall : ‖p‖ < 3 / 2 * ε := by
    have sum : -2 * p = 2 * T + (p + 2 * cubic.simpleRoot) := by
      rw [cubic.simpleRoot_eq_sub double, b_eq, T_eq]
      ring
    have bound := norm_add_le (2 * T) (p + 2 * cubic.simpleRoot)
    rw [← sum, norm_mul, norm_mul, norm_neg, Complex.norm_ofNat] at bound
    linarith
  have D₁Small : ‖cubic.D₁‖ ≤ 6 * ε * ‖cubic.D₀‖ := by
    have factored : cubic.D₁ = (3 * T + 2 * p) * cubic.D₀ := by
      rw [T_eq]
      linear_combination cubic.D₁_eq_mul_D₀ double + 2 * cubic.D₀ * b_eq
    have bound := norm_add_le (3 * T) (2 * p)
    rw [norm_mul, norm_mul, Complex.norm_ofNat, Complex.norm_ofNat] at bound
    rw [factored, norm_mul]
    gcongr
    linarith
  -- A large `D₀` would make `4 * D₀ ^ 3 = D₁ ^ 2 - discriminant` larger than its two terms allow.
  have D₀Small : ‖cubic.D₀‖ < 1 := by
    by_contra large
    have large : 1 ≤ ‖cubic.D₀‖ := not_lt.mp large
    have bound := norm_sub_le (cubic.D₁ ^ 2) cubic.discriminant
    have cubes : cubic.D₁ ^ 2 - cubic.discriminant = 4 * cubic.D₀ ^ 3 := by
      linear_combination -cubic.discriminant_eq
    rw [cubes, norm_mul, norm_pow, norm_pow, Complex.norm_ofNat] at bound
    have squares : ‖cubic.D₁‖ ^ 2 ≤ (6 * ε * ‖cubic.D₀‖) ^ 2 := by gcongr
    have tolerance : ε ^ 2 ≤ (1 / 16) ^ 2 := by gcongr
    nlinarith [mul_le_mul_of_nonneg_right tolerance (sq_nonneg ‖cubic.D₀‖),
      mul_le_mul_of_nonneg_right large (sq_nonneg ‖cubic.D₀‖)]
  have factored : 27 * cubic.d = (3 * T - 11 / 2 * p) * cubic.D₀ + 125 / 8 * p ^ 3 := by
    rw [T_eq]
    linear_combination -3 * doubled + cubic.b * cubic.D₀_eq +
      (cubic.b ^ 2 + 5 / 2 * p * cubic.b + 25 / 4 * p ^ 2 - cubic.D₀) * b_eq
  have bound := norm_add_le ((3 * T - 11 / 2 * p) * cubic.D₀) (125 / 8 * p ^ 3)
  have firstBound := norm_sub_le (3 * T) (11 / 2 * p)
  rw [← factored] at bound
  simp only [norm_mul, norm_div, norm_pow, Complex.norm_ofNat] at bound firstBound
  have pCubed : ‖p‖ ^ 3 ≤ (3 / 2 * ε) ^ 3 := by gcongr
  have tolerance : ε ^ 3 ≤ ε * (1 / 16) ^ 2 := by
    have := mul_le_mul_of_nonneg_left (pow_le_pow_left₀ positive.le small 2) positive.le
    linarith [this]
  have D₀Nonneg := norm_nonneg cubic.D₀
  nlinarith [mul_le_mul_of_nonneg_left D₀Small.le (norm_nonneg (3 * T - 11 / 2 * p))]

/-- The cube root of unity has modulus one. -/
theorem norm_omega : ‖(omega : ℂ)‖ = 1 := by
  have product : (omega : ℂ) * conj omega = 1 := omega_mul_conj
  have sameNorm : ‖conj (omega : ℂ)‖ = ‖(omega : ℂ)‖ := RCLike.norm_conj (omega : ℂ)
  have norms := congrArg (‖·‖) product
  rw [norm_mul, sameNorm, norm_one, ← pow_two] at norms
  exact (pow_eq_one_iff_of_nonneg (norm_nonneg _) two_ne_zero).mp norms

/-- So has its conjugate. -/
theorem norm_conj_omega : ‖conj (omega : ℂ)‖ = 1 :=
  (RCLike.norm_conj (omega : ℂ)).trans norm_omega

/-- If the formula for three roots gives small divisors, the cube root in it is small. -/
theorem norm_cubeRoot_lt {C : ℂ} (firstSmall : ‖p + 2 * cubic.rootOf C‖ < ε)
    (secondSmall : ‖p + 2 * cubic.rootOf (omega * C)‖ < ε)
    (thirdSmall : ‖p + 2 * cubic.rootOf (conj omega * C)‖ < ε) : ‖C‖ < 3 / 2 * ε := by
  have sum : (1 : ℂ) + omega + conj omega = 0 := omega_sum
  have product : (omega : ℂ) * conj omega = 1 := omega_mul_conj
  -- Weighted by the conjugate cube roots of one, everything but the cube root cancels.
  have weighted : (p + 2 * cubic.rootOf C) + conj omega * (p + 2 * cubic.rootOf (omega * C)) +
      omega * (p + 2 * cubic.rootOf (conj omega * C)) = -2 * C := by
    simp only [rootOf_eq, div_omega_mul, div_conj_omega_mul]
    generalize cubic.D₀ / C = v
    linear_combination (p - 2 / 3 * cubic.b - 2 / 3 * v * (omega + conj omega - 1)) * sum +
      (4 / 3 * v - 4 / 3 * C) * product
  have bound := norm_add₃_le (a := p + 2 * cubic.rootOf C)
    (b := conj omega * (p + 2 * cubic.rootOf (omega * C)))
    (c := omega * (p + 2 * cubic.rootOf (conj omega * C)))
  rw [weighted, norm_mul, norm_mul, norm_mul, norm_conj_omega, norm_omega, one_mul, one_mul,
    norm_neg, Complex.norm_ofNat] at bound
  linarith

/-- The larger candidate is no smaller than the root of the discriminant. -/
theorem norm_le_larger {x root larger : ℂ}
    (isLarger : ‖x - root‖ ≤ ‖x + root‖ ∧ larger = x + root ∨
      ‖x + root‖ ≤ ‖x - root‖ ∧ larger = x - root) : ‖root‖ ≤ ‖larger‖ := by
  have bound := norm_sub_le (x + root) (x - root)
  have difference : x + root - (x - root) = 2 * root := by ring
  rw [difference, norm_mul, Complex.norm_ofNat] at bound
  rcases isLarger with ⟨larger, rfl⟩ | ⟨larger, rfl⟩
  · linarith
  · linarith

end RootFinding.ClosedForm.MonicCubic
