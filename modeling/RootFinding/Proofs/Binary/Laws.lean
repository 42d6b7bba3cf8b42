import RootFinding.Proofs.Binary.Scalars

/-!
# Laws of floating-point scalars

Floating-point arithmetic satisfies few of the laws of a field. It satisfies these: what is the same
but for the sign of a zero yields the same, negation passes through sums, products and quotients,
zero is neutral, what is not finite stays so, and numbers are linearly ordered.
-/

namespace RootFinding.FloatingScalar

open Float.Model Float.Model.UnpackedFloat Binary

variable {R : Type} [Scalar R] [FloatingScalar R]

/-- One scalar but for the sign of a zero. Values that are not a number are the same. -/
def Same (x y : R) : Prop :=
  withoutZeroSign (unpacked x) = withoutZeroSign (unpacked y)

section Sameness

variable {x x' y y' : R}

/-- Every scalar is the same as itself, one that is not a number included. -/
@[refl] theorem Same.refl (x : R) : Same x x :=
  rfl

/-- What is one scalar is the same. -/
theorem same_of_eq (equal : x = y) : Same x y :=
  equal ▸ Same.refl x

/-- Being the same does not depend on the order. -/
@[symm] theorem Same.symm (same : Same x y) : Same y x :=
  Eq.symm same

/-- What is the same as the same is the same. -/
@[trans] theorem Same.trans {z : R} (first : Same x y) (second : Same y z) : Same x z :=
  Eq.trans first second

/-- Equal scalars are numbers that are the same but for the sign of a zero. -/
theorem beq_iff : (x == y) = true ↔ Scalar.isNaN x = false ∧ Same x y := by
  rw [beq_eq, isNaN_eq, unpacked_beq_iff, Same]

/-- Equal scalars are the same. -/
theorem same_of_beq (equal : (x == y) = true) : Same x y :=
  (beq_iff.mp equal).2

/-- The same scalars are both numbers or neither. -/
theorem Same.isNaN (same : Same x y) : Scalar.isNaN x = Scalar.isNaN y := by
  rw [isNaN_eq, isNaN_eq, ← isNaN_withoutZeroSign, same, isNaN_withoutZeroSign]

/-- The same scalars are both finite or neither. -/
theorem Same.isFinite (same : Same x y) : Scalar.isFinite x = Scalar.isFinite y := by
  rw [isFinite_eq, isFinite_eq, ← isFinite_withoutZeroSign, same, isFinite_withoutZeroSign]

/-- The same scalars are both infinite or neither. -/
theorem Same.isInfinite (same : Same x y) : Scalar.isInfinite x = Scalar.isInfinite y := by
  rw [Scalar.isInfinite, Scalar.isInfinite, same.isFinite, same.isNaN]

/-- Whether two scalars are equal does not depend on the signs of zeros. -/
theorem Same.beq (first : Same x x') (second : Same y y') : (x == y) = (x' == y') := by
  rw [Bool.eq_iff_iff, beq_iff, beq_iff, first.isNaN]
  exact and_congr_right fun _ =>
    ⟨fun same => first.symm.trans (same.trans second),
      fun same => first.trans (same.trans second.symm)⟩

/-- The negatives of the same are the same. -/
theorem Same.neg (same : Same x y) : Same (-x) (-y) := by
  rw [Same, unpacked_neg, unpacked_neg, withoutZeroSign_neg, same, ← withoutZeroSign_neg]

/-- Rounding the same values yields the same. -/
theorem same_of_repack {x y : UnpackedFloat} (spec : Float.Model.Format)
    (same : withoutZeroSign x = withoutZeroSign y) :
    withoutZeroSign (repack spec x) = withoutZeroSign (repack spec y) := by
  rw [withoutZeroSign_repack, same, ← withoutZeroSign_repack]

/-- The sums of the same are the same. -/
theorem Same.add (first : Same x x') (second : Same y y') : Same (x + y) (x' + y') := by
  rw [Same, unpacked_add, unpacked_add]
  refine same_of_repack _ ?_
  rw [withoutZeroSign_add, first, second, ← withoutZeroSign_add]

/-- The differences of the same are the same. -/
theorem Same.sub (first : Same x x') (second : Same y y') : Same (x - y) (x' - y') := by
  rw [Same, unpacked_sub, unpacked_sub]
  refine same_of_repack _ ?_
  rw [withoutZeroSign_sub, first, second, ← withoutZeroSign_sub]

/-- The products of the same are the same. -/
theorem Same.mul (first : Same x x') (second : Same y y') : Same (x * y) (x' * y') := by
  rw [Same, unpacked_mul, unpacked_mul]
  refine same_of_repack _ ?_
  rw [withoutZeroSign_mul, first, second, ← withoutZeroSign_mul]

/-- The sign of a zero divisor decides between the two infinities: there is one divisor here. -/
theorem Same.div (same : Same x y) (z : R) : Same (x / z) (y / z) := by
  rw [Same, unpacked_div, unpacked_div]
  refine same_of_repack _ ?_
  rw [withoutZeroSign_div, same, ← withoutZeroSign_div]

/-- The magnitude does not depend on the sign of a zero. -/
theorem Same.abs (same : Same x y) : Scalar.abs x = Scalar.abs y := by
  have unsigned (x : UnpackedFloat) : x.abs = (withoutZeroSign x).abs := by cases x <;> rfl
  refine unpacked_injective ?_
  rw [unpacked_abs, unpacked_abs, unsigned, same, ← unsigned]

/-- The same scalars with the same sign are one. -/
theorem Same.eq_of_signBit (same : Same x y) (sign : Scalar.signBit x = Scalar.signBit y) :
    x = y := by
  rw [signBit_eq, signBit_eq] at sign
  exact unpacked_injective (eq_of_withoutZeroSign same sign)

/-- The same scalars with different signs are zeros. -/
theorem Same.zero_of_signBit (same : Same x y) (sign : Scalar.signBit x ≠ Scalar.signBit y) :
    Same x 0 := by
  rw [signBit_eq, signBit_eq] at sign
  rw [Same, withoutZeroSign_eq_zero same sign, unpacked_zero]
  rfl

end Sameness

section Negation

variable {x y : R}

/-- Negating twice changes nothing. -/
@[simp] theorem neg_neg (x : R) : - -x = x :=
  unpacked_injective (by rw [unpacked_neg, unpacked_neg, neg_neg_unpacked])

/-- A negative is a number exactly if the scalar is. -/
@[simp] theorem isNaN_neg (x : R) : Scalar.isNaN (-x) = Scalar.isNaN x := by
  rw [isNaN_eq, isNaN_eq, unpacked_neg, isNaN_neg_unpacked]

/-- A negative is finite exactly if the scalar is. -/
@[simp] theorem isFinite_neg (x : R) : Scalar.isFinite (-x) = Scalar.isFinite x := by
  rw [isFinite_eq, isFinite_eq, unpacked_neg]
  cases unpacked x <;> rfl

/-- The magnitude does not depend on the sign. -/
theorem abs_neg (x : R) : Scalar.abs (-x) = Scalar.abs x := by
  refine unpacked_injective ?_
  rw [unpacked_abs, unpacked_neg, unpacked_abs]
  cases unpacked x <;> rfl

/-- A minus sign may change sides in a comparison. -/
theorem neg_beq (x y : R) : (-x == y) = (x == -y) := by
  rw [Bool.eq_iff_iff, beq_iff, beq_iff, isNaN_neg]
  refine and_congr_right fun _ => ⟨fun same => ?_, fun same => ?_⟩
  · simpa using same.neg
  · simpa using same.neg

/-- The two zeros are the same. -/
theorem neg_zero_same : Same (-0 : R) 0 := by
  rw [Same, unpacked_neg, unpacked_zero]
  rfl

/-- Zero is the same as its negative. -/
theorem same_neg_of_zero (zero : Same x 0) : Same x (-x) :=
  zero.trans (neg_zero_same.symm.trans zero.neg.symm)

/-- A minus sign passes through a product from its first factor. -/
theorem neg_mul (x y : R) : -x * y = -(x * y) :=
  unpacked_injective (by
    rw [unpacked_mul, unpacked_neg, neg_mul_unpacked, repack_neg, unpacked_neg, unpacked_mul])

/-- A minus sign passes through a product from its second factor. -/
theorem mul_neg (x y : R) : x * -y = -(x * y) :=
  unpacked_injective (by
    rw [unpacked_mul, unpacked_neg, mul_neg_unpacked, repack_neg, unpacked_neg, unpacked_mul])

/-- A minus sign passes through a quotient from its dividend. -/
theorem neg_div (x y : R) : -x / y = -(x / y) :=
  unpacked_injective (by
    rw [unpacked_div, unpacked_neg, neg_div_unpacked, repack_neg, unpacked_neg, unpacked_div])

/-- Negation passes through a sum, but for the sign of a zero. -/
theorem neg_add_neg (x y : R) : Same (-x + -y) (-(x + y)) := by
  rw [Same, unpacked_add, unpacked_neg, unpacked_neg, unpacked_neg, unpacked_add, ← repack_neg]
  exact same_of_repack _ (withoutZeroSign_add_neg ..)

/-- What is the same as its negative is zero or not a number. -/
theorem zero_of_same_neg (same : Same x (-x)) : Same x 0 ∨ Scalar.isNaN x = true := by
  rw [Same, unpacked_neg] at same
  rw [Same, unpacked_zero, isNaN_eq]
  generalize unpacked x = number at same ⊢
  rcases number with (_ | _) | _ | _ | (_ | _)
  · cases same
  · cases same
  · exact Or.inr rfl
  · exact Or.inl rfl
  · cases same
  · cases same

end Negation

section Zero

variable {x y : R}

/-- Zero is a number. -/
theorem isNaN_zero : Scalar.isNaN (0 : R) = false := by
  rw [isNaN_eq, unpacked_zero]
  rfl

/-- Zero is finite. -/
theorem isFinite_zero : Scalar.isFinite (0 : R) = true := by
  rw [isFinite_eq, unpacked_zero]
  rfl

/-- The scalars that equal zero are those that are the same as zero. -/
theorem beq_zero_iff : (x == 0) = true ↔ Same x 0 :=
  ⟨same_of_beq, fun same => beq_iff.mpr ⟨same.isNaN.trans isNaN_zero, same⟩⟩

/-- Zero is neutral, but for the sign of a zero. -/
theorem add_zero (zero : Same y 0) : Same (x + y) x := by
  refine (Same.add (Same.refl x) zero).trans ?_
  rw [Same, unpacked_add, unpacked_zero]
  refine (same_of_repack _ (withoutZeroSign_add_zero _)).trans ?_
  rw [repack_unpacked]

/-- The scalars that differ from zero are those that are not the same as zero. -/
theorem beq_zero_eq_false_iff : (x == 0) = false ↔ ¬Same x 0 := by
  rw [← beq_zero_iff, Bool.not_eq_true]

/-- The sum of a zero of either sign and zero has no minus sign. -/
theorem zero_add_zero (zero : Same x 0) : x + 0 = 0 := by
  refine unpacked_injective ?_
  have isZero : ∃ sign, unpacked x = .zero sign := by
    rw [Same, unpacked_zero] at zero
    generalize unpacked x = number at zero ⊢
    cases number with
    | zero sign => exact ⟨sign, rfl⟩
    | infinity | notANumber | finite => cases zero
  obtain ⟨sign, isZero⟩ := isZero
  rw [unpacked_add, unpacked_zero, isZero]
  cases sign with
  | positive => exact repack_zero _
  | negative => exact repack_zero _

/-- Anything times zero is zero or not a number. -/
theorem mul_zero_or (x : R) (zero : Same y 0) :
    Same (x * y) 0 ∨ Scalar.isNaN (x * y) = true := by
  have negative : Same (x * y) (-(x * y)) := by
    rw [← mul_neg]
    exact Same.mul (Same.refl x) (same_neg_of_zero zero)
  exact zero_of_same_neg negative

/-- Zero divided by anything is zero or not a number. -/
theorem zero_div_or (zero : Same x 0) (y : R) :
    Same (x / y) 0 ∨ Scalar.isNaN (x / y) = true := by
  have negative : Same (x / y) (-(x / y)) := by
    rw [← neg_div]
    exact Same.div (same_neg_of_zero zero) y
  exact zero_of_same_neg negative

/-- A number divided by a finite number other than zero is a number. -/
theorem isNaN_div (number : Scalar.isNaN x = false) (finite : Scalar.isFinite y = true)
    (nonzero : (y == 0) = false) : Scalar.isNaN (x / y) = false := by
  rw [beq_zero_eq_false_iff, Same, unpacked_zero] at nonzero
  rw [isNaN_eq] at number ⊢
  rw [isFinite_eq] at finite
  rw [unpacked_div, isNaN_repack]
  generalize unpacked x = dividend at number ⊢
  generalize unpacked y = divisor at nonzero finite ⊢
  cases divisor with
  | notANumber | infinity => cases finite
  | zero => exact absurd rfl nonzero
  | finite =>
      cases dividend with
      | notANumber => cases number
      | infinity | zero => rfl
      | finite => exact isNaN_roundWithAccuracy ..

/-- Of the two zeros the negative one has the sign. -/
theorem signBit_zero : Scalar.signBit (0 : R) = false ∧ Scalar.signBit (-0 : R) = true := by
  rw [signBit_eq, signBit_eq, unpacked_neg, unpacked_zero]
  exact ⟨rfl, rfl⟩

/-- What is the same as zero is one of the two zeros. -/
theorem Same.eq_zero (zero : Same x 0) : x = 0 ∨ x = -0 := by
  cases sign : Scalar.signBit x with
  | false => exact Or.inl (zero.eq_of_signBit (sign.trans signBit_zero.1.symm))
  | true =>
      exact Or.inr ((zero.trans neg_zero_same.symm).eq_of_signBit (sign.trans signBit_zero.2.symm))

/-- What takes both zeros to one value takes what is the same to one value. -/
theorem Same.eq_of_zeros {α : Type} (same : Same x y) (f : R → α) (zeros : f 0 = f (-0)) :
    f x = f y := by
  by_cases sign : Scalar.signBit x = Scalar.signBit y
  · rw [same.eq_of_signBit sign]
  · have zero := same.zero_of_signBit sign
    rcases zero.eq_zero with rfl | rfl <;> rcases (same.symm.trans zero).eq_zero with rfl | rfl
    · rfl
    · exact zeros
    · exact zeros.symm
    · rfl

/-- A function that takes both zeros to the same takes the same to the same. -/
theorem same_of_zeros (f : R → R) (zeros : (f 0 == f (-0)) = true) (same : Same x y) :
    Same (f x) (f y) :=
  same.eq_of_zeros (fun x => withoutZeroSign (unpacked (f x))) (same_of_beq zeros)

end Zero

section Nonfinite

variable {x : R} (nonfinite : Scalar.isFinite x = false)
include nonfinite

/-- What is not finite is unpacked to what is not finite. -/
theorem isFinite_unpacked : (unpacked x).isFinite = false := by
  rw [← isFinite_eq, nonfinite]

/-- A sum with a second summand that is not finite is not finite. -/
theorem isFinite_add_right (y : R) : Scalar.isFinite (y + x) = false := by
  rw [isFinite_eq, unpacked_add]
  exact isFinite_repack (Binary.isFinite_add_right (isFinite_unpacked nonfinite) _)

/-- A difference to what is not finite is not finite. -/
theorem isFinite_sub_left (y : R) : Scalar.isFinite (x - y) = false := by
  rw [isFinite_eq, unpacked_sub]
  exact isFinite_repack (Binary.isFinite_sub_left (isFinite_unpacked nonfinite) _)

/-- A product with a first factor that is not finite is not finite. -/
theorem isFinite_mul_left (y : R) : Scalar.isFinite (x * y) = false := by
  rw [isFinite_eq, unpacked_mul]
  exact isFinite_repack (Binary.isFinite_mul_left (isFinite_unpacked nonfinite) _)

/-- A product with a second factor that is not finite is not finite. -/
theorem isFinite_mul_right (y : R) : Scalar.isFinite (y * x) = false := by
  rw [isFinite_eq, unpacked_mul]
  exact isFinite_repack (Binary.isFinite_mul_right (isFinite_unpacked nonfinite) _)

/-- What is not finite times zero is not a number. -/
theorem isNaN_mul_zero {y : R} (zero : Same y 0) : Scalar.isNaN (x * y) = true := by
  rw [(Same.mul (Same.refl x) zero).isNaN, isNaN_eq, unpacked_mul, unpacked_zero,
    mul_zero_nonfinite (isFinite_unpacked nonfinite), repack_notANumber]
  rfl

end Nonfinite

section NotANumber

variable {x : R} (notANumber : Scalar.isNaN x = true)
include notANumber

/-- What is not a number has one unpacked form. -/
theorem unpacked_of_isNaN : unpacked x = .notANumber := by
  rw [isNaN_eq] at notANumber
  cases number : unpacked x with
  | notANumber => rfl
  | infinity | zero | finite => simp [number, UnpackedFloat.isNaN] at notANumber

/-- What is not a number is all the same. -/
theorem same_of_isNaN {y : R} (notANumberToo : Scalar.isNaN y = true) : Same x y := by
  rw [Same, unpacked_of_isNaN notANumber, unpacked_of_isNaN notANumberToo]

/-- A product with a first factor that is not a number is not a number. -/
theorem isNaN_mul_left (y : R) : Scalar.isNaN (x * y) = true := by
  rw [isNaN_eq, unpacked_mul, unpacked_of_isNaN notANumber, isNaN_repack]
  rfl

/-- A sum with a second summand that is not a number is not a number. -/
theorem isNaN_add_right (y : R) : Scalar.isNaN (y + x) = true := by
  rw [isNaN_eq, unpacked_add, unpacked_of_isNaN notANumber, isNaN_repack]
  cases unpacked y <;> rfl

/-- A product with a second factor that is not a number is not a number. -/
theorem isNaN_mul_right (y : R) : Scalar.isNaN (y * x) = true := by
  rw [isNaN_eq, unpacked_mul, unpacked_of_isNaN notANumber, isNaN_repack]
  cases unpacked y <;> rfl

end NotANumber

section Infinite

variable {x : R}

omit [FloatingScalar R] in
/-- What is infinite is not finite. -/
theorem isFinite_of_isInfinite (infinite : Scalar.isInfinite x = true) :
    Scalar.isFinite x = false := by
  rw [Scalar.isInfinite, Bool.and_eq_true, Bool.not_eq_true'] at infinite
  exact infinite.1

omit [FloatingScalar R] in
/-- What is infinite is a number. -/
theorem isNaN_of_isInfinite (infinite : Scalar.isInfinite x = true) : Scalar.isNaN x = false := by
  rw [Scalar.isInfinite, Bool.and_eq_true, Bool.not_eq_true', Bool.not_eq_true'] at infinite
  exact infinite.2

omit [FloatingScalar R] in
/-- What is not finite is infinite or not a number. -/
theorem isInfinite_or_isNaN (nonfinite : Scalar.isFinite x = false) :
    Scalar.isInfinite x = true ∨ Scalar.isNaN x = true := by
  rw [Scalar.isInfinite, nonfinite]
  cases Scalar.isNaN x with
  | true => exact Or.inr rfl
  | false => exact Or.inl rfl

/-- What is finite is a number. -/
theorem isNaN_of_isFinite (finite : Scalar.isFinite x = true) : Scalar.isNaN x = false := by
  rw [isFinite_eq] at finite
  rw [isNaN_eq]
  cases number : unpacked x with
  | notANumber => simp [number, UnpackedFloat.isFinite] at finite
  | infinity | zero | finite => rfl

/-- A negative is infinite exactly if the scalar is. -/
@[simp] theorem isInfinite_neg (x : R) : Scalar.isInfinite (-x) = Scalar.isInfinite x := by
  rw [Scalar.isInfinite, Scalar.isInfinite, isNaN_neg, isFinite_neg]

/-- The difference of an infinity and itself is not a number. -/
theorem isNaN_sub_self (infinite : Scalar.isInfinite x = true) :
    Scalar.isNaN (x - x) = true := by
  have number := isNaN_of_isInfinite infinite
  have nonfinite := isFinite_of_isInfinite infinite
  rw [isNaN_eq] at number
  rw [isFinite_eq] at nonfinite
  rw [isNaN_eq, unpacked_sub, isNaN_repack]
  obtain isNaN | ⟨sign, isInfinity⟩ := nonfinite_cases nonfinite
  · rw [isNaN] at number
    cases number
  · rw [isInfinity]
    cases sign <;> rfl

end Infinite

section Order

variable {x x' y y' z : R}

/-- The place of a scalar in the order of numbers. -/
def place (x : R) : ℤ ×ₗ ℤ ×ₗ ℤ :=
  rank (unpacked x)

/-- A scalar is less than another exactly if both are numbers and its place comes before. -/
theorem lt_iff_place :
    x < y ↔ Scalar.isNaN x = false ∧ Scalar.isNaN y = false ∧ place x < place y := by
  rw [lt_iff, unpacked_lt_iff, isNaN_eq, isNaN_eq, place, place]

/-- A scalar is at most another exactly if both are numbers and its place does not come after. -/
theorem le_iff_place :
    x ≤ y ↔ Scalar.isNaN x = false ∧ Scalar.isNaN y = false ∧ place x ≤ place y := by
  rw [le_iff, unpacked_le_iff, isNaN_eq, isNaN_eq, place, place]

/-- The same scalars have one place. -/
theorem Same.place (same : Same x y) : place x = place y := by
  rw [FloatingScalar.place, FloatingScalar.place, ← rank_withoutZeroSign, same,
    rank_withoutZeroSign]

/-- Numbers are equal exactly if they have one place. -/
theorem beq_iff_place (number : Scalar.isNaN x = false) (numberToo : Scalar.isNaN y = false) :
    (x == y) = true ↔ FloatingScalar.place x = FloatingScalar.place y := by
  refine ⟨fun equal => (same_of_beq equal).place, fun same => beq_iff.mpr ⟨number, ?_⟩⟩
  rw [isNaN_eq] at number numberToo
  exact withoutZeroSign_eq_of_rank number numberToo same

/-- Which of two scalars is less does not depend on the signs of zeros. -/
theorem Same.lt (first : Same x x') (second : Same y y') : x < y ↔ x' < y' := by
  rw [lt_iff_place, lt_iff_place, first.isNaN, second.isNaN, first.place, second.place]

/-- Which of two scalars is at most the other does not depend on the signs of zeros. -/
theorem Same.le (first : Same x x') (second : Same y y') : x ≤ y ↔ x' ≤ y' := by
  rw [le_iff_place, le_iff_place, first.isNaN, second.isNaN, first.place, second.place]

/-- A number is at most itself. -/
theorem le_refl (number : Scalar.isNaN x = false) : x ≤ x :=
  le_iff_place.mpr ⟨number, number, le_rfl⟩

/-- The order is transitive. -/
theorem le_trans (first : x ≤ y) (second : y ≤ z) : x ≤ z := by
  rw [le_iff_place] at *
  exact ⟨first.1, second.2.1, first.2.2.trans second.2.2⟩

/-- What is less is at most that. -/
theorem le_of_lt (less : x < y) : x ≤ y := by
  rw [lt_iff_place] at less
  exact le_iff_place.mpr ⟨less.1, less.2.1, less.2.2.le⟩

/-- What is at most something less is less. -/
theorem lt_of_le_of_lt (first : x ≤ y) (second : y < z) : x < z := by
  rw [le_iff_place] at first
  rw [lt_iff_place] at second ⊢
  exact ⟨first.1, second.2.1, first.2.2.trans_lt second.2.2⟩

/-- Numbers are linearly ordered. -/
theorem le_of_not_lt (number : Scalar.isNaN x = false) (numberToo : Scalar.isNaN y = false)
    (notLess : ¬x < y) : y ≤ x := by
  rw [lt_iff_place] at notLess
  refine le_iff_place.mpr ⟨numberToo, number, le_of_not_gt fun less => ?_⟩
  exact notLess ⟨number, numberToo, less⟩

/-- Numbers are ordered as their places are. -/
theorem order_eq_compare (number : Scalar.isNaN x = false) (numberToo : Scalar.isNaN y = false) :
    Scalar.order x y = compare (FloatingScalar.place x) (FloatingScalar.place y) := by
  unfold Scalar.order
  split
  · next less => exact (compare_lt_iff_lt.mpr (lt_iff_place.mp less).2.2).symm
  · next notLess =>
    split
    · next greater => exact (compare_gt_iff_gt.mpr (lt_iff_place.mp greater).2.2).symm
    · next notGreater =>
      have below := (le_iff_place.mp (le_of_not_lt number numberToo notLess)).2.2
      have above := (le_iff_place.mp (le_of_not_lt numberToo number notGreater)).2.2
      exact (compare_eq_iff_eq.mpr (above.antisymm below)).symm

end Order

end RootFinding.FloatingScalar
