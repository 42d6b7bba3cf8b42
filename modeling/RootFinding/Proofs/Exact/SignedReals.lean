import RootFinding.Proofs.Tolerance.Numbers

/-!
# Real numbers with signed zeros

Exact arithmetic in which a zero may still have a sign. Scalars that calculate exactly stand for
real numbers: every operation is the one on the real numbers, equality and order are theirs, and
only of a zero does the value not tell the sign. What is proved of such scalars holds whatever the
signs of zeros are. The real numbers with two zeros are an instance.
-/

namespace RootFinding

/-- Scalars that stand for real numbers and calculate without rounding. Nothing is said of the sign
of a zero, nor of the angle of a vector on the axis, which depends on that sign. -/
class ExactReals (R : Type) [RealFunctions R] where
  value : R → ℝ
  epsilon_pos : 0 < value Scalar.epsilon
  value_zero : value 0 = 0
  value_two : value 2.0 = 1 + 1
  value_neg (x : R) : value (-x) = -value x
  value_add (x y : R) : value (x + y) = value x + value y
  value_sub (x y : R) : value (x - y) = value x - value y
  value_mul (x y : R) : value (x * y) = value x * value y
  value_div (x : R) {y : R} : value y ≠ 0 → value (x / y) = value x / value y
  value_abs (x : R) : value (Scalar.abs x) = |value x|
  value_sqrt {x : R} : 0 ≤ value x → value (RealFunctions.sqrt x) = √(value x)
  value_cos (x : R) : value (RealFunctions.cos x) = Real.cos (value x)
  value_sin (x : R) : value (RealFunctions.sin x) = Real.sin (value x)
  value_hypot (x y : R) : value (RealFunctions.hypot x y) = √(value x ^ 2 + value y ^ 2)
  value_atan2 {y : R} (x : R) : value y ≠ 0 →
    value (RealFunctions.atan2 y x) = (⟨value x, value y⟩ : ℂ).arg
  beq_iff (x y : R) : (x == y) = true ↔ value x = value y
  lt_iff (x y : R) : x < y ↔ value x < value y
  le_iff (x y : R) : x ≤ y ↔ value x ≤ value y
  signBit_iff {x : R} : value x ≠ 0 → (Scalar.signBit x = true ↔ value x < 0)

/-- A real number with a mark, which tells the sign if the number is zero. -/
structure SignedReal where
  value : ℝ
  mark : Bool

namespace SignedReal

/-- Whether the sign is the minus sign. -/
noncomputable def minus (x : SignedReal) : Bool :=
  if x.value = 0 then x.mark else decide (x.value < 0)

/-- The scalars of the real numbers with two zeros. A zero sum has a minus sign if both summands
have, a zero product if one factor has. The tolerance is that of the 64-bit numbers. -/
noncomputable instance : Scalar SignedReal where
  zero := ⟨0, false⟩
  one := ⟨1, false⟩
  neg x := ⟨-x.value, !x.minus⟩
  add x y := ⟨x.value + y.value, x.minus && y.minus⟩
  sub x y := ⟨x.value - y.value, x.minus && !y.minus⟩
  mul x y := ⟨x.value * y.value, x.minus ^^ y.minus⟩
  div x y := ⟨x.value / y.value, x.minus ^^ y.minus⟩
  ofScientific mantissa negative exponent :=
    ⟨OfScientific.ofScientific mantissa negative exponent, false⟩
  beq x y := decide (x.value = y.value)
  lt x y := x.value < y.value
  le x y := x.value ≤ y.value
  decidableLT x y := inferInstanceAs (Decidable (x.value < y.value))
  decidableLE x y := inferInstanceAs (Decidable (x.value ≤ y.value))
  abs x := ⟨|x.value|, false⟩
  epsilon := ⟨0.5 ^ 52, false⟩
  infinity := ⟨0, false⟩
  largest := ⟨0, false⟩
  isNaN _ := false
  isFinite _ := true
  signBit := minus

/-- The functions of a real number. Odd functions keep the sign of a zero, and the angle of a vector
on the axis is half a turn on either side if its first coordinate has a minus sign. -/
noncomputable instance : RealFunctions SignedReal where
  sqrt x := ⟨√x.value, x.minus⟩
  cbrt x := ⟨realCbrt x.value, x.minus⟩
  exp x := ⟨Real.exp x.value, false⟩
  log x := ⟨Real.log x.value, false⟩
  sin x := ⟨Real.sin x.value, x.minus⟩
  cos x := ⟨Real.cos x.value, false⟩
  sinh x := ⟨Real.sinh x.value, x.minus⟩
  cosh x := ⟨Real.cosh x.value, false⟩
  pow x y := ⟨x.value ^ y.value, false⟩
  hypot x y := ⟨√(x.value ^ 2 + y.value ^ 2), false⟩
  atan2 y x :=
    if y.value = 0 ∧ x.minus = true then ⟨if y.minus then -Real.pi else Real.pi, y.minus⟩
    else ⟨(⟨x.value, y.value⟩ : ℂ).arg, y.minus⟩
  ln10 := ⟨Real.log 10.0, false⟩

noncomputable instance : ExactReals SignedReal where
  value := value
  epsilon_pos := by
    change (0 : ℝ) < 0.5 ^ 52
    norm_num
  value_zero := rfl
  value_two := by
    change (2.0 : ℝ) = 1 + 1
    norm_num
  value_neg _ := rfl
  value_add _ _ := rfl
  value_sub _ _ := rfl
  value_mul _ _ := rfl
  value_div _ _ _ := rfl
  value_abs _ := rfl
  value_sqrt _ := rfl
  value_cos _ := rfl
  value_sin _ := rfl
  value_hypot _ _ := rfl
  value_atan2 _ nonzero := congrArg value (if_neg fun onAxis => nonzero onAxis.1)
  beq_iff _ _ := decide_eq_true_iff
  lt_iff _ _ := Iff.rfl
  le_iff _ _ := Iff.rfl
  signBit_iff {x} nonzero := by
    change x.minus = true ↔ x.value < 0
    rw [minus, if_neg nonzero, decide_eq_true_iff]

end SignedReal

end RootFinding
