import RootFinding.Proofs.Binary.Unpacked

/-!
# Floating-point scalars

Scalars that calculate as binary floating-point numbers do. The two zeros are equal and otherwise
equal numbers are identical, so that what negation, sums, differences and products yield for equal
operands is equal, or in both cases not a number. Numbers are ordered, and what is not a number
stands outside the order.
-/

namespace RootFinding

open Float.Model Float.Model.UnpackedFloat

namespace Binary

/-- Whether a sign is the minus sign. -/
def isMinus : Sign → Bool
  | .negative => true
  | .positive => false

/-- Whether a number has a minus sign. -/
def isNegative : UnpackedFloat → Bool
  | .infinity sign | .zero sign | .finite sign .. => isMinus sign
  | .notANumber => false

/-- The place of a number in the order of numbers: zero is in the middle, and on either side of it
numbers go by the exponent and then by the significand. -/
def rank : UnpackedFloat → ℤ ×ₗ ℤ ×ₗ ℤ
  | .infinity .negative => toLex (-2, toLex (0, 0))
  | .finite .negative mantissa exponent _ => toLex (-1, toLex (-exponent, -(mantissa : ℤ)))
  | .finite .positive mantissa exponent _ => toLex (1, toLex (exponent, (mantissa : ℤ)))
  | .infinity .positive => toLex (2, toLex (0, 0))
  | _ => toLex (0, toLex (0, 0))

/-- The negative sign comes before the positive one. -/
theorem compare_signs : compare Sign.negative Sign.negative = .eq ∧
    compare Sign.negative Sign.positive = .lt ∧ compare Sign.positive Sign.negative = .gt ∧
      compare Sign.positive Sign.positive = .eq :=
  ⟨rfl, rfl, rfl, rfl⟩

/-- A number is less than another exactly if both are numbers and its rank is less. -/
theorem unpacked_lt_iff (x y : UnpackedFloat) :
    x.lt y = true ↔ x.isNaN = false ∧ y.isNaN = false ∧ rank x < rank y := by
  rw [UnpackedFloat.lt, beq_iff_eq]
  rcases x with (_ | _) | _ | (_ | _) | (_ | _) <;>
    rcases y with (_ | _) | _ | (_ | _) | (_ | _) <;>
      simp [UnpackedFloat.compare, UnpackedFloat.isNaN, rank, Prod.Lex.toLex_lt_toLex,
        compare_signs, Ordering.then_eq_lt, Ordering.then_eq_gt, compare_lt_iff_lt,
        compare_gt_iff_gt]

/-- A number is at most another exactly if both are numbers and its rank is not greater. -/
theorem unpacked_le_iff (x y : UnpackedFloat) :
    x.le y = true ↔ x.isNaN = false ∧ y.isNaN = false ∧ rank x ≤ rank y := by
  rw [UnpackedFloat.le]
  rcases x with (_ | _) | _ | (_ | _) | (_ | _) <;>
    rcases y with (_ | _) | _ | (_ | _) | (_ | _) <;>
      simp [UnpackedFloat.compare, UnpackedFloat.isNaN, rank, Prod.Lex.toLex_le_toLex,
        compare_signs, Ordering.isLE_iff_ne_gt, Ordering.isGE_iff_ne_lt, Ordering.then_eq_lt,
        Ordering.then_eq_gt, compare_lt_iff_lt, compare_gt_iff_gt]
  · omega
  · omega

/-- The sign of a zero does not matter for the rank. -/
theorem rank_withoutZeroSign (x : UnpackedFloat) : rank (withoutZeroSign x) = rank x := by
  cases x <;> rfl

/-- Numbers of one place are the same but for the sign of a zero. -/
theorem withoutZeroSign_eq_of_rank {x y : UnpackedFloat} (number : x.isNaN = false)
    (numberToo : y.isNaN = false) (same : rank x = rank y) :
    withoutZeroSign x = withoutZeroSign y := by
  rcases x with (_ | _) | _ | (_ | _) | (_ | _) <;>
    rcases y with (_ | _) | _ | (_ | _) | (_ | _) <;>
      simp_all [rank, withoutZeroSign, UnpackedFloat.isNaN]

/-- The sign of a zero does not matter for being finite. -/
theorem isFinite_withoutZeroSign (x : UnpackedFloat) :
    (withoutZeroSign x).isFinite = x.isFinite := by
  cases x <;> rfl

/-- Numbers that differ in the sign of a zero only, and have the same sign, are the same. -/
theorem eq_of_withoutZeroSign {x y : UnpackedFloat} (same : withoutZeroSign x = withoutZeroSign y)
    (sign : isNegative x = isNegative y) : x = y := by
  cases x with
  | zero own =>
      cases y with
      | zero other => cases own <;> cases other <;> first | rfl | cases sign
      | infinity | notANumber | finite => cases same
  | infinity | notANumber | finite =>
      cases y with
      | zero => cases same
      | infinity | notANumber | finite => exact same

/-- Numbers that differ in the sign of a zero only, and have different signs, are zeros. -/
theorem withoutZeroSign_eq_zero {x y : UnpackedFloat}
    (same : withoutZeroSign x = withoutZeroSign y) (sign : isNegative x ≠ isNegative y) :
    withoutZeroSign x = .zero .positive := by
  cases x with
  | zero => rfl
  | infinity | notANumber | finite =>
      cases y with
      | zero => cases same
      | infinity | notANumber | finite => exact absurd (congrArg isNegative same) sign

/-- A magnitude is the number or its negative. -/
theorem abs_eq_or_neg (x : UnpackedFloat) : x.abs = x ∨ x.abs = x.neg := by
  rcases x with (_ | _) | _ | (_ | _) | (_ | _)
  · exact Or.inr rfl
  · exact Or.inl rfl
  · exact Or.inl rfl
  · exact Or.inr rfl
  · exact Or.inl rfl
  · exact Or.inr rfl
  · exact Or.inl rfl

end Binary

open Binary

/-- Scalars that are numbers of a binary format. An operation is that on the unpacked numbers,
rounded to the format. -/
class FloatingScalar (R : Type) [Scalar R] where
  spec : Float.Model.Format
  unpacked : R → UnpackedFloat
  unpacked_injective : Function.Injective unpacked
  repack_unpacked (x : R) : repack spec (unpacked x) = unpacked x
  unpacked_zero : unpacked 0 = .zero .positive
  unpacked_neg (x : R) : unpacked (-x) = (unpacked x).neg
  unpacked_abs (x : R) : unpacked (Scalar.abs x) = (unpacked x).abs
  unpacked_add (x y : R) :
    unpacked (x + y) = repack spec (UnpackedFloat.add spec (unpacked x) (unpacked y))
  unpacked_sub (x y : R) :
    unpacked (x - y) = repack spec (UnpackedFloat.sub spec (unpacked x) (unpacked y))
  unpacked_mul (x y : R) :
    unpacked (x * y) = repack spec (UnpackedFloat.mul spec (unpacked x) (unpacked y))
  unpacked_div (x y : R) :
    unpacked (x / y) = repack spec (UnpackedFloat.div spec (unpacked x) (unpacked y))
  beq_eq (x y : R) : (x == y) = (unpacked x).beq (unpacked y)
  lt_iff (x y : R) : x < y ↔ (unpacked x).lt (unpacked y) = true
  le_iff (x y : R) : x ≤ y ↔ (unpacked x).le (unpacked y) = true
  isNaN_eq (x : R) : Scalar.isNaN x = (unpacked x).isNaN
  isFinite_eq (x : R) : Scalar.isFinite x = (unpacked x).isFinite
  signBit_eq (x : R) : Scalar.signBit x = isNegative (unpacked x)

section Hardware

/-- What is unpacked from a valid bit pattern is packed and unpacked unchanged. -/
theorem Binary.repack_unpack {spec : Float.Model.Format} (wide : 1 < spec.exponentBits)
    {bits : BitVec spec.numBits} (valid : spec.Valid bits) :
    repack spec (UnpackedFloat.unpack spec bits) = UnpackedFloat.unpack spec bits := by
  rw [repack, pack_unpack wide valid]

/-- The magnitude of what is packed as it is is packed as it is. -/
theorem Binary.repack_abs {spec : Float.Model.Format} {x : UnpackedFloat}
    (kept : repack spec x = x) : repack spec x.abs = x.abs := by
  rcases abs_eq_or_neg x with same | opposite
  · rw [same, kept]
  · rw [opposite, repack_neg, kept]

/-- The sign is the bit above the exponent and the mantissa. -/
theorem Binary.toNat_unpackSign {spec : Float.Model.Format} (bits : BitVec spec.numBits) :
    (unpackSign bits).toNat =
      bits.toNat >>> (spec.mantissaBitsWithoutImplicit + spec.exponentBits) := by
  have bound := bits.isLt
  simp only [unpackSign, BitVec.toNat_cast, BitVec.extractLsb_toNat]
  refine Nat.mod_eq_of_lt ?_
  rw [Nat.shiftRight_eq_div_pow]
  refine Nat.div_lt_of_lt_mul ?_
  rw [← pow_add]
  refine bound.trans_le (Nat.pow_le_pow_right two_pos ?_)
  unfold Float.Model.Format.numBits
  omega

/-- The leading bit of a valid bit pattern is the minus sign. -/
theorem Binary.isNegative_unpack {spec : Float.Model.Format} {bits : BitVec spec.numBits}
    (valid : spec.Valid bits) :
    isNegative (UnpackedFloat.unpack spec bits) = (unpackSign bits == 1#1) := by
  have sign : ∀ bit : BitVec 1, isMinus (Sign.ofBitVec bit) = (bit == 1#1) := by decide
  rw [← sign, UnpackedFloat.unpack]
  split
  · next special =>
    split
    · rfl
    · next payload =>
      rw [valid.eq_packedNaN special payload, packedNaN, unpackSign_packComponents]
      rfl
  · split
    · split <;> rfl
    · rfl

/-- Valid bit patterns that are unpacked to one number are one. -/
theorem Binary.unpack_injective {spec : Float.Model.Format} (wide : 1 < spec.exponentBits)
    {bits others : BitVec spec.numBits} (valid : spec.Valid bits) (validToo : spec.Valid others)
    (same : UnpackedFloat.unpack spec bits = UnpackedFloat.unpack spec others) : bits = others := by
  rw [← pack_unpack wide valid, same, pack_unpack wide validToo]

instance : FloatingScalar Float where
  spec := .binary64
  unpacked x := x.toModel.unpack
  unpacked_injective x y same := by
    have bits := unpack_injective (by decide) x.toModel.valid y.toModel.valid same
    obtain ⟨⟨bitsX, _⟩⟩ := x
    obtain ⟨⟨bitsY, _⟩⟩ := y
    obtain rfl : bitsX = bitsY := UInt64.toBitVec_inj.mp bits
    rfl
  repack_unpacked x := repack_unpack (by decide) x.toModel.valid
  unpacked_zero := by
    have bits : (0 : Float).toModel.toBits.toBitVec = pack .binary64 (.zero .positive) := by
      decide +kernel
    exact (congrArg (UnpackedFloat.unpack .binary64) bits).trans (repack_zero _)
  unpacked_neg x := by
    change repack .binary64 (UnpackedFloat.unpack .binary64 _).neg = _
    rw [repack_neg, repack_unpack (by decide) x.toModel.valid]
    rfl
  unpacked_abs x := repack_abs (repack_unpack (by decide) x.toModel.valid)
  unpacked_add _ _ := rfl
  unpacked_sub _ _ := rfl
  unpacked_mul _ _ := rfl
  unpacked_div _ _ := rfl
  beq_eq _ _ := rfl
  lt_iff _ _ := decide_eq_true_iff
  le_iff _ _ := decide_eq_true_iff
  isNaN_eq _ := rfl
  isFinite_eq _ := rfl
  signBit_eq x := by
    refine Eq.trans ?_ (isNegative_unpack x.toModel.valid).symm
    change (x.toModel.toBits >>> 63 == 1) = _
    rw [Bool.eq_iff_iff, beq_iff_eq, beq_iff_eq, ← UInt64.toBitVec_inj, ← BitVec.toNat_inj,
      ← BitVec.toNat_inj, toNat_unpackSign]
    rfl

instance : FloatingScalar Float32 where
  spec := .binary32
  unpacked x := x.toModel.unpack
  unpacked_injective x y same := by
    have bits := unpack_injective (by decide) x.toModel.valid y.toModel.valid same
    obtain ⟨⟨bitsX, _⟩⟩ := x
    obtain ⟨⟨bitsY, _⟩⟩ := y
    obtain rfl : bitsX = bitsY := UInt32.toBitVec_inj.mp bits
    rfl
  repack_unpacked x := repack_unpack (by decide) x.toModel.valid
  unpacked_zero := by
    have bits : (0 : Float32).toModel.toBits.toBitVec = pack .binary32 (.zero .positive) := by
      decide +kernel
    exact (congrArg (UnpackedFloat.unpack .binary32) bits).trans (repack_zero _)
  unpacked_neg x := by
    change repack .binary32 (UnpackedFloat.unpack .binary32 _).neg = _
    rw [repack_neg, repack_unpack (by decide) x.toModel.valid]
    rfl
  unpacked_abs x := repack_abs (repack_unpack (by decide) x.toModel.valid)
  unpacked_add _ _ := rfl
  unpacked_sub _ _ := rfl
  unpacked_mul _ _ := rfl
  unpacked_div _ _ := rfl
  beq_eq _ _ := rfl
  lt_iff _ _ := decide_eq_true_iff
  le_iff _ _ := decide_eq_true_iff
  isNaN_eq _ := rfl
  isFinite_eq _ := rfl
  signBit_eq x := by
    refine Eq.trans ?_ (isNegative_unpack x.toModel.valid).symm
    change (x.toModel.toBits >>> 31 == 1) = _
    rw [Bool.eq_iff_iff, beq_iff_eq, beq_iff_eq, ← UInt32.toBitVec_inj, ← BitVec.toNat_inj,
      ← BitVec.toNat_inj, toNat_unpackSign]
    rfl

end Hardware

end RootFinding
