import RootFinding.Binary.Format

/-!
# Integer roots

`floorRoot degree n` is the largest integer whose power does not exceed `n`, found by Newton's
iteration from above in integers. `stickyRoot` keeps a trailing digit that tells an exact
root from a cut one, which is all that later rounding has to know; the digits of the
radicand beyond those that the root needs are cut as well.
-/

namespace RootFinding.Binary

/-- One step of the iteration: the mean of `degree` factors of `n`, of which the root so far is all
but one. -/
def improveRoot (degree n root : Nat) : Nat :=
  ((degree - 1) * root + n / root ^ (degree - 1)) / degree

/-- Improve a root that is not too small while that makes it smaller. -/
def descendRoot (degree n : Nat) : Nat → Nat → Nat
  | 0, root => root
  | steps + 1, root =>
      let improved := improveRoot degree n root
      if improved < root then descendRoot degree n steps improved else root

/-- The largest integer whose power does not exceed `n`. -/
def floorRoot (degree n : Nat) : Nat :=
  let start := 2 ^ (n.log2 / degree + 1)
  descendRoot degree n start start

/-- Of two numbers, each times its own power is together no less than each times the other's. -/
theorem mul_pow_add_mul_pow_le (x y degree : Nat) :
    y * x ^ degree + x * y ^ degree ≤ x * x ^ degree + y * y ^ degree := by
  rcases Nat.le_total x y with le | le
  all_goals
    obtain ⟨excess, rfl⟩ := Nat.exists_eq_add_of_le le
    have grows := Nat.mul_le_mul_left excess (Nat.pow_le_pow_left le degree)
    rw [Nat.add_mul, Nat.add_mul]
    omega

/-- The arithmetic mean is no less than the geometric one, for equal factors and one other. -/
theorem succ_mul_mul_pow_le (degree x y : Nat) :
    (degree + 1) * y * x ^ degree ≤ degree * x ^ (degree + 1) + y ^ (degree + 1) := by
  induction degree with
  | zero => simp
  | succ degree inductionHypothesis =>
      have crossed := mul_pow_add_mul_pow_le x y (degree + 1)
      have scaled := Nat.mul_le_mul_left x inductionHypothesis
      have left : (degree + 1 + 1) * y * x ^ (degree + 1) =
          x * ((degree + 1) * y * x ^ degree) + y * x ^ (degree + 1) := by grind
      have right : (degree + 1) * x ^ (degree + 1 + 1) + y ^ (degree + 1 + 1) +
            x * y ^ (degree + 1) =
          x * (degree * x ^ (degree + 1) + y ^ (degree + 1)) +
            (x * x ^ (degree + 1) + y * y ^ (degree + 1)) := by grind
      omega

/-- A step does not go below any number whose power fits. -/
theorem le_improveRoot {degree n root fitting : Nat} (positive : 0 < root)
    (fits : fitting ^ (degree + 1) ≤ n) : fitting ≤ improveRoot (degree + 1) n root := by
  have means := succ_mul_mul_pow_le degree root fitting
  have missing : (degree + 1) * fitting - degree * root ≤ n / root ^ degree := by
    rw [Nat.le_div_iff_mul_le (Nat.pow_pos positive), Nat.sub_mul, Nat.mul_assoc degree,
      ← Nat.pow_add_one']
    omega
  rw [improveRoot, Nat.le_div_iff_mul_le (Nat.add_one_pos degree), Nat.add_sub_cancel,
    Nat.mul_comm fitting]
  omega

/-- The power of a root that a step does not make smaller fits. -/
theorem pow_le_of_le_improveRoot {degree n root : Nat}
    (stays : root ≤ improveRoot (degree + 1) n root) : root ^ (degree + 1) ≤ n := by
  rcases Nat.eq_zero_or_pos root with rfl | positive
  · simp
  · rw [improveRoot, Nat.le_div_iff_mul_le (Nat.add_one_pos degree), Nat.add_sub_cancel,
      Nat.mul_succ, Nat.mul_comm root degree] at stays
    rw [Nat.pow_add_one', ← Nat.le_div_iff_mul_le (Nat.pow_pos positive)]
    omega

/-- The number after an upper bound of those whose power fits is not one of them. -/
theorem lt_pow_of_isUpper {degree n root : Nat}
    (isUpper : ∀ fitting, fitting ^ (degree + 1) ≤ n → fitting ≤ root) :
    n < (root + 1) ^ (degree + 1) := by
  refine Nat.lt_of_not_ge fun fits => ?_
  have := isUpper _ fits
  omega

/-- From a start above every number whose power fits, the iteration ends at the largest of them. -/
theorem descendRoot_bounds {degree n steps root : Nat} (enough : root ≤ steps)
    (isUpper : ∀ fitting, fitting ^ (degree + 1) ≤ n → fitting ≤ root) :
    descendRoot (degree + 1) n steps root ^ (degree + 1) ≤ n ∧
      n < (descendRoot (degree + 1) n steps root + 1) ^ (degree + 1) := by
  induction steps generalizing root with
  | zero =>
      obtain rfl : root = 0 := by omega
      exact ⟨by simp [descendRoot], lt_pow_of_isUpper isUpper⟩
  | succ steps inductionHypothesis =>
      rw [descendRoot]
      split
      · next isSmaller =>
        have stillUpper (fitting : Nat) (fits : fitting ^ (degree + 1) ≤ n) :
            fitting ≤ improveRoot (degree + 1) n root := le_improveRoot (by omega) fits
        exact inductionHypothesis (by omega) stillUpper
      · exact ⟨pow_le_of_le_improveRoot (by omega), lt_pow_of_isUpper isUpper⟩

/-- The power of the floor of a root fits, and that of the next number does not. -/
theorem floorRoot_bounds {degree : Nat} (positive : 0 < degree) (n : Nat) :
    floorRoot degree n ^ degree ≤ n ∧ n < (floorRoot degree n + 1) ^ degree := by
  have enough : n.log2 < (n.log2 / degree + 1) * degree := by
    have := Nat.div_add_mod n.log2 degree
    have := Nat.mod_lt n.log2 positive
    rw [Nat.add_mul, Nat.mul_comm]
    omega
  have startExceeds : n < (2 ^ (n.log2 / degree + 1)) ^ degree :=
    calc n < 2 ^ (n.log2 + 1) := Nat.lt_log2_self
      _ ≤ 2 ^ ((n.log2 / degree + 1) * degree) := Nat.pow_le_pow_right (by omega) enough
      _ = (2 ^ (n.log2 / degree + 1)) ^ degree := Nat.pow_mul ..
  obtain ⟨degree, rfl⟩ := Nat.exists_eq_add_one_of_ne_zero (Nat.pos_iff_ne_zero.mp positive)
  refine descendRoot_bounds (Nat.le_refl _) fun fitting fits => ?_
  exact Nat.le_of_lt <|
    (Nat.pow_lt_pow_iff_left (by omega)).mp (Nat.lt_of_le_of_lt fits startExceeds)

/-- How far to shift a `length`-bit integer so that its root has at least `digits` binary
digits and the exponent that remains is divisible by `degree`. The shift is to the right
where it is negative. -/
def rootShift (degree digits length : Nat) (exponent : Int) : Int :=
  let least : Int := degree * digits - length
  least + (exponent - least) % degree

/-- Twice the floor of the root of a shifted integer, plus one where the root or the shift
is not exact: a value that lies on the same side of every even number as twice the exact
root does. -/
def stickyRoot (degree n : Nat) (shift : Int) : Nat :=
  let root := floorRoot degree ((n <<< shift.toNat) >>> (-shift).toNat)
  let isExact := root ^ degree <<< (-shift).toNat == n <<< shift.toNat
  2 * root + (if isExact then 0 else 1)

end RootFinding.Binary
