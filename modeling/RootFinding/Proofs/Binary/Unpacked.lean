import RootFinding.Proofs.SignedZero

/-!
# Bit patterns and unpacked numbers

A bit pattern has three fields, and unpacking reads them as a number. What is packed and unpacked
again keeps its sign and whether it is a number at all, and a pattern that was valid is packed as it
was. So a number is known by its unpacked form. The operations on unpacked numbers look at the signs
of their operands as products do, and at the sign of a zero only to decide on that of another.
-/

namespace RootFinding.Binary

open Float.Model Float.Model.UnpackedFloat

variable {spec : Float.Model.Format}

section Fields

/-- The sign field is the sign that was packed. -/
@[simp] theorem unpackSign_packComponents (sign : Sign) (exponent : BitVec spec.exponentBits)
    (mantissa : BitVec spec.mantissaBitsWithoutImplicit) :
    unpackSign (packComponents spec sign exponent mantissa) = sign.toBitVec := by
  apply BitVec.eq_of_getLsbD_eq
  intro i bound
  obtain rfl : i = 0 := by omega
  simp [unpackSign, packComponents, BitVec.getLsbD_append, BitVec.getElem_append]

/-- A sign is read back from its bit. -/
@[simp] theorem ofBitVec_toBitVec (sign : Sign) : Sign.ofBitVec sign.toBitVec = sign := by
  cases sign <;> rfl

/-- A bit is written back from its sign. -/
@[simp] theorem toBitVec_ofBitVec (bit : BitVec 1) : (Sign.ofBitVec bit).toBitVec = bit := by
  revert bit
  decide

/-- A bit pattern is made of its fields. -/
theorem packComponents_unpack (bits : BitVec spec.numBits) :
    packComponents spec (Sign.ofBitVec (unpackSign bits)) (unpackExponent bits)
      (unpackMantissa bits) = bits := by
  apply BitVec.eq_of_getLsbD_eq
  intro i bound
  have mantissaWidth := spec.hm
  have exponentWidth := spec.he
  unfold Float.Model.Format.numBits at bound
  simp only [packComponents, toBitVec_ofBitVec, BitVec.getLsbD_append, unpackSign, unpackExponent,
    unpackMantissa, BitVec.getLsbD_cast, BitVec.getLsbD_extract]
  split
  · simp
    omega
  · split
    · have place : spec.mantissaBitsWithoutImplicit + (i - spec.mantissaBitsWithoutImplicit) = i :=
        by omega
      rw [place]
      simp
      omega
    · have place : spec.mantissaBitsWithoutImplicit + spec.exponentBits +
          (i - spec.mantissaBitsWithoutImplicit - spec.exponentBits) = i := by omega
      rw [place]
      simp
      omega

/-- An exponent field without a bit is not the one of the special values. -/
theorem zero_ne_neg_one : (0#_ : BitVec spec.exponentBits) ≠ -1#_ := by
  intro same
  have values := congrArg BitVec.toNat same
  rw [BitVec.neg_one_eq_allOnes, BitVec.toNat_allOnes, BitVec.toNat_zero] at values
  have := Nat.one_lt_two_pow spec.he.ne'
  omega

/-- A leading bit counts as much as all bits below it and one. -/
theorem toNat_one_append (width : Nat) (mantissa : BitVec width) :
    (1#1 ++ mantissa).toNat = 2 ^ width + mantissa.toNat := by
  rw [BitVec.toNat_append, ← Nat.shiftLeft_add_eq_or_of_lt mantissa.isLt]
  simp [Nat.shiftLeft_eq]

/-- A valid bit pattern is packed as it was. -/
theorem pack_unpack (wide : 1 < spec.exponentBits) {bits : BitVec spec.numBits}
    (valid : spec.Valid bits) :
    UnpackedFloat.pack spec (UnpackedFloat.unpack spec bits) = bits := by
  have whole := packComponents_unpack bits
  have mantissaBound := (unpackMantissa bits).isLt
  have exponentBound := (unpackExponent bits).isLt
  rw [UnpackedFloat.unpack]
  split
  · next special =>
    split
    · next clear =>
      rw [special, clear] at whole
      exact whole
    · next payload => exact (valid.eq_packedNaN special payload).symm
  · next ordinary =>
    split
    -- The least exponent field stands for the next exponent without the implicit leading bit.
    · next least =>
      split
      · next clear =>
        rw [least, clear] at whole
        exact whole
      · next subnormal =>
        have biased : ((unpackExponent bits).toNat -
            (spec.exponentBias + spec.mantissaBitsWithoutImplicit : Int) + 1 + spec.exponentBias +
              spec.mantissaBitsWithoutImplicit).toNat = 1 := by
          rw [least, BitVec.toNat_zero]
          omega
        have short : ¬(unpackMantissa bits).toNat.log2 + 1 = spec.mantissaBits := by
          have nonzero : (unpackMantissa bits).toNat ≠ 0 := fun none =>
            subnormal (BitVec.eq_of_toNat_eq none)
          have below := (Nat.log2_lt nonzero).mpr mantissaBound
          unfold Float.Model.Format.mantissaBits
          omega
        have small : ¬2 ^ spec.exponentBits ≤ 1 + 1 := by
          have := Nat.pow_le_pow_right two_pos wide
          omega
        simp only [UnpackedFloat.pack, biased, if_neg short]
        rw [if_neg small, BitVec.ofNat_toNat, BitVec.setWidth_eq, ← least]
        exact whole
    · next normal =>
      have biased : ((unpackExponent bits).toNat -
          (spec.exponentBias + spec.mantissaBitsWithoutImplicit : Int) + spec.exponentBias +
            spec.mantissaBitsWithoutImplicit).toNat = (unpackExponent bits).toNat := by
        omega
      have long : (1#1 ++ unpackMantissa bits).toNat.log2 + 1 = spec.mantissaBits := by
        have leading : (1#1 ++ unpackMantissa bits).toNat.log2 =
            spec.mantissaBitsWithoutImplicit := by
          rw [toNat_one_append, Nat.log2_eq_iff (by positivity), pow_succ]
          omega
        unfold Float.Model.Format.mantissaBits
        omega
      have small : ¬2 ^ spec.exponentBits ≤ (unpackExponent bits).toNat + 1 := by
        intro large
        refine ordinary (BitVec.eq_of_toNat_eq ?_)
        rw [BitVec.neg_one_eq_allOnes, BitVec.toNat_allOnes]
        omega
      have fraction : BitVec.ofNat spec.mantissaBitsWithoutImplicit
          (2 ^ spec.mantissaBitsWithoutImplicit + (unpackMantissa bits).toNat) =
            unpackMantissa bits := by
        apply BitVec.eq_of_toNat_eq
        rw [BitVec.toNat_ofNat, Nat.add_mod_left, Nat.mod_eq_of_lt mantissaBound]
      simp only [UnpackedFloat.pack, biased, if_pos long, if_neg small]
      rw [BitVec.ofNat_toNat, BitVec.setWidth_eq, toNat_one_append, fraction]
      exact whole

end Fields

section Repacking

/-- What a format keeps of a number. -/
def repack (spec : Float.Model.Format) (x : UnpackedFloat) : UnpackedFloat :=
  UnpackedFloat.unpack spec (UnpackedFloat.pack spec x)

/-- Fields below the special exponent are those of a number. -/
theorem isNaN_unpack_packComponents (sign : Sign) {exponent : BitVec spec.exponentBits}
    (ordinary : exponent ≠ -1#_) (mantissa : BitVec spec.mantissaBitsWithoutImplicit) :
    (UnpackedFloat.unpack spec (packComponents spec sign exponent mantissa)).isNaN = false := by
  simp only [UnpackedFloat.unpack, unpackExponent_packComponents, if_neg ordinary]
  split
  · split <;> rfl
  · rfl

/-- The sign field is the sign and nothing else. -/
theorem neg_unpack_packComponents (sign : Sign) (exponent : BitVec spec.exponentBits)
    (mantissa : BitVec spec.mantissaBitsWithoutImplicit) :
    (UnpackedFloat.unpack spec (packComponents spec sign exponent mantissa)).neg =
      UnpackedFloat.unpack spec (packComponents spec (-sign) exponent mantissa) := by
  simp only [UnpackedFloat.unpack, unpackSign_packComponents, unpackExponent_packComponents,
    unpackMantissa_packComponents, ofBitVec_toBitVec]
  split
  · split <;> rfl
  · split
    · split <;> rfl
    · rfl

/-- What is not a number stays so when it is packed. -/
@[simp] theorem repack_notANumber : repack spec .notANumber = .notANumber := by
  have payload : (1#_ : BitVec spec.mantissaBitsWithoutImplicit) <<<
      (spec.mantissaBitsWithoutImplicit - 1) ≠ 0#_ := by
    intro none
    have bit := congrArg
      (fun bits => bits.getLsbD (spec.mantissaBitsWithoutImplicit - 1)) none
    have := spec.hm
    simp at bit
    omega
  simp only [repack, UnpackedFloat.pack, packedNaN, UnpackedFloat.unpack,
    unpackExponent_packComponents, unpackMantissa_packComponents, if_pos, if_neg payload]

/-- An infinity is packed as it is. -/
@[simp] theorem repack_infinity (sign : Sign) : repack spec (.infinity sign) = .infinity sign := by
  simp [repack, UnpackedFloat.pack, packedInfinity, UnpackedFloat.unpack]

/-- A zero is packed as it is, with its sign. -/
@[simp] theorem repack_zero (sign : Sign) : repack spec (.zero sign) = .zero sign := by
  simp only [repack, UnpackedFloat.pack, packedZero, UnpackedFloat.unpack,
    unpackExponent_packComponents, unpackMantissa_packComponents, unpackSign_packComponents,
    ofBitVec_toBitVec]
  exact (if_neg zero_ne_neg_one).trans ((if_pos rfl).trans (dif_pos rfl))

/-- A number stays one, and what is not a number stays so. -/
theorem isNaN_repack (x : UnpackedFloat) : (repack spec x).isNaN = x.isNaN := by
  cases x with
  | notANumber => rw [repack_notANumber]
  | infinity sign => rw [repack_infinity]
  | zero sign => rw [repack_zero]
  | finite sign mantissa exponent positive =>
      simp only [repack, UnpackedFloat.pack]
      split
      · exact congrArg (·.isNaN) (repack_infinity sign)
      · next small =>
        split
        · refine isNaN_unpack_packComponents sign ?_ _
          intro special
          have values := congrArg BitVec.toNat special
          rw [BitVec.neg_one_eq_allOnes, BitVec.toNat_allOnes, BitVec.toNat_ofNat,
            Nat.mod_eq_of_lt (by omega)] at values
          omega
        · exact isNaN_unpack_packComponents sign zero_ne_neg_one _

/-- Rounding does not look at the sign. -/
theorem repack_neg (x : UnpackedFloat) : repack spec x.neg = (repack spec x).neg := by
  cases x with
  | notANumber => simp [UnpackedFloat.neg]
  | infinity sign => simp [UnpackedFloat.neg]
  | zero sign => simp [UnpackedFloat.neg]
  | finite sign mantissa exponent positive =>
      simp only [repack, UnpackedFloat.neg, UnpackedFloat.pack, packedInfinity]
      split
      · exact (neg_unpack_packComponents ..).symm
      · split
        · exact (neg_unpack_packComponents ..).symm
        · exact (neg_unpack_packComponents ..).symm

/-- The sign of a zero decides no more than the sign of a zero. -/
theorem withoutZeroSign_repack (x : UnpackedFloat) :
    withoutZeroSign (repack spec x) = withoutZeroSign (repack spec (withoutZeroSign x)) := by
  cases x with
  | zero sign => simp [withoutZeroSign]
  | finite | infinity | notANumber => rfl

end Repacking

section Operations

/-- The opposite of the opposite sign is the sign. -/
@[simp] theorem neg_neg_sign (sign : Sign) : - -sign = sign := by
  cases sign <;> rfl

/-- Negating twice changes nothing. -/
@[simp] theorem neg_neg_unpacked (x : UnpackedFloat) : x.neg.neg = x := by
  cases x <;> simp [UnpackedFloat.neg]

/-- A negative is a number exactly if its operand is. -/
@[simp] theorem isNaN_neg_unpacked (x : UnpackedFloat) : x.neg.isNaN = x.isNaN := by
  cases x <;> rfl

/-- The sign of a zero operand decides no more than the sign of a zero negative. -/
theorem withoutZeroSign_neg (x : UnpackedFloat) :
    withoutZeroSign x.neg = withoutZeroSign (withoutZeroSign x).neg := by
  cases x <;> rfl

/-- The signs of zero summands decide no more than the sign of a zero sum. -/
theorem withoutZeroSign_add (x y : UnpackedFloat) :
    withoutZeroSign (add spec x y) =
      withoutZeroSign (add spec (withoutZeroSign x) (withoutZeroSign y)) := by
  cases x with
  | zero sign =>
      cases y with
      | zero other => cases sign <;> cases other <;> rfl
      | finite | infinity | notANumber => rfl
  | finite | infinity | notANumber => cases y <;> rfl

/-- The signs of zero factors decide no more than the sign of a zero product. -/
theorem withoutZeroSign_mul (x y : UnpackedFloat) :
    withoutZeroSign (mul spec x y) =
      withoutZeroSign (mul spec (withoutZeroSign x) (withoutZeroSign y)) := by
  cases x <;> cases y <;> rfl

/-- What is rounded with the opposite sign is the negative. -/
theorem roundWithAccuracy_neg (sign : Sign) (mantissa : Nat) (exponent : Int)
    (accuracy : Accuracy) :
    roundWithAccuracy spec (-sign) mantissa exponent accuracy =
      (roundWithAccuracy spec sign mantissa exponent accuracy).neg := by
  unfold roundWithAccuracy
  simp only
  split <;> rfl

/-- Rounding gives a number. -/
theorem isNaN_roundWithAccuracy (sign : Sign) (mantissa : Nat) (exponent : Int)
    (accuracy : Accuracy) :
    (roundWithAccuracy spec sign mantissa exponent accuracy).isNaN = false := by
  unfold roundWithAccuracy
  simp only
  split <;> rfl

/-- The opposite of the first sign makes the opposite product. -/
theorem neg_mul_sign (sign other : Sign) : -sign * other = -(sign * other) := by
  cases sign <;> cases other <;> rfl

/-- The opposite of the second sign makes the opposite product. -/
theorem mul_neg_sign (sign other : Sign) : sign * -other = -(sign * other) := by
  cases sign <;> cases other <;> rfl

/-- The opposite of the first sign makes the opposite quotient. -/
theorem neg_div_sign (sign other : Sign) : -sign / other = -(sign / other) := by
  cases sign <;> cases other <;> rfl

/-- The negative of the first factor makes the negative product. -/
theorem neg_mul_unpacked (x y : UnpackedFloat) :
    UnpackedFloat.mul spec x.neg y = (UnpackedFloat.mul spec x y).neg := by
  cases x <;> cases y <;>
    simp [UnpackedFloat.neg, UnpackedFloat.mul, neg_mul_sign, roundWithAccuracy_neg]

/-- The negative of the second factor makes the negative product. -/
theorem mul_neg_unpacked (x y : UnpackedFloat) :
    UnpackedFloat.mul spec x y.neg = (UnpackedFloat.mul spec x y).neg := by
  cases x <;> cases y <;>
    simp [UnpackedFloat.neg, UnpackedFloat.mul, mul_neg_sign, roundWithAccuracy_neg]

/-- The negative of the dividend makes the negative quotient. -/
theorem neg_div_unpacked (x y : UnpackedFloat) :
    UnpackedFloat.div spec x.neg y = (UnpackedFloat.div spec x y).neg := by
  cases x <;> cases y <;>
    simp [UnpackedFloat.neg, UnpackedFloat.div, neg_div_sign, roundWithAccuracy_neg]

/-- A sign is applied to a number by negation. -/
theorem apply_neg (sign : Sign) (number : Int) : (-sign).apply number = -sign.apply number := by
  cases sign with
  | negative => exact (Int.neg_neg number).symm
  | positive => rfl

/-- The opposite mantissa is rounded to the opposite number. -/
theorem withoutZeroSign_normalize_neg (mantissa exponent : Int) (zeroSign : Sign) :
    withoutZeroSign (UnpackedFloat.normalize spec (-mantissa) exponent zeroSign) =
      withoutZeroSign (UnpackedFloat.normalize spec mantissa exponent zeroSign).neg := by
  unfold UnpackedFloat.normalize
  rcases lt_trichotomy mantissa 0 with negative | rfl | positive
  · rw [compare_gt_iff_gt.mpr (Int.neg_pos_of_neg negative), compare_lt_iff_lt.mpr negative]
    exact congrArg withoutZeroSign (roundWithAccuracy_neg .negative ..)
  · rfl
  · rw [compare_lt_iff_lt.mpr (Int.neg_neg_of_pos positive), compare_gt_iff_gt.mpr positive,
      Int.neg_neg]
    exact congrArg withoutZeroSign (roundWithAccuracy_neg .positive ..)

/-- The sum of opposite numbers is the opposite of the sum, but for the sign of a zero. -/
theorem withoutZeroSign_add_neg (x y : UnpackedFloat) :
    withoutZeroSign (add spec x.neg y.neg) = withoutZeroSign (add spec x y).neg := by
  cases x with
  | finite sign mantissa exponent =>
      cases y with
      | finite other mantissaToo exponentToo =>
          have opposite (m n : Int) :
              (-sign).apply m + (-other).apply n = -(sign.apply m + other.apply n) := by
            rw [apply_neg, apply_neg, Int.neg_add]
          refine Eq.trans ?_ (withoutZeroSign_normalize_neg ..)
          exact congrArg (fun mantissa => withoutZeroSign
            (UnpackedFloat.normalize spec mantissa (min exponent exponentToo) .positive))
              (opposite _ _)
      | zero | infinity | notANumber => rfl
  | zero sign =>
      cases y with
      | zero other => cases sign <;> cases other <;> rfl
      | finite | infinity | notANumber => rfl
  | infinity sign =>
      cases y with
      | infinity other => cases sign <;> cases other <;> rfl
      | finite | zero | notANumber => rfl
  | notANumber => rfl

/-- The sign of a zero dividend decides no more than the sign of a zero. -/
theorem withoutZeroSign_div (x y : UnpackedFloat) :
    withoutZeroSign (UnpackedFloat.div spec x y) =
      withoutZeroSign (UnpackedFloat.div spec (withoutZeroSign x) y) := by
  cases x <;> cases y <;> rfl

/-- Zero is neutral, but for the sign of a zero. -/
theorem withoutZeroSign_add_zero (x : UnpackedFloat) :
    withoutZeroSign (UnpackedFloat.add spec x (.zero .positive)) = withoutZeroSign x := by
  rcases x with (_ | _) | _ | (_ | _) | (_ | _) <;> rfl

end Operations

section Nonfinite

variable {x : UnpackedFloat} (nonfinite : x.isFinite = false)
include nonfinite

/-- What is not finite is an infinity or not a number. -/
theorem nonfinite_cases : x = .notANumber ∨ ∃ sign, x = .infinity sign := by
  cases x with
  | notANumber => exact Or.inl rfl
  | infinity sign => exact Or.inr ⟨sign, rfl⟩
  | zero | finite => cases nonfinite

/-- What is not finite stays so when it is packed. -/
theorem isFinite_repack : (repack spec x).isFinite = false := by
  obtain rfl | ⟨sign, rfl⟩ := nonfinite_cases nonfinite
  · rw [repack_notANumber, nonfinite]
  · rw [repack_infinity, nonfinite]

/-- It makes no finite sum as the second summand. -/
theorem isFinite_add_right (y : UnpackedFloat) :
    (UnpackedFloat.add spec y x).isFinite = false := by
  obtain rfl | ⟨sign, rfl⟩ := nonfinite_cases nonfinite
  · cases y <;> rfl
  · rcases y with (_ | _) | _ | _ | _ <;> cases sign <;> rfl

/-- It makes no finite difference as what is subtracted from. -/
theorem isFinite_sub_left (y : UnpackedFloat) : (UnpackedFloat.sub spec x y).isFinite = false := by
  obtain rfl | ⟨sign, rfl⟩ := nonfinite_cases nonfinite
  · cases y <;> rfl
  · rcases y with (_ | _) | _ | _ | _ <;> cases sign <;> rfl

/-- It makes no finite product as the first factor. -/
theorem isFinite_mul_left (y : UnpackedFloat) : (UnpackedFloat.mul spec x y).isFinite = false := by
  obtain rfl | ⟨sign, rfl⟩ := nonfinite_cases nonfinite <;> cases y <;> rfl

/-- It makes no finite product as the second factor. -/
theorem isFinite_mul_right (y : UnpackedFloat) :
    (UnpackedFloat.mul spec y x).isFinite = false := by
  obtain rfl | ⟨sign, rfl⟩ := nonfinite_cases nonfinite <;> cases y <;> rfl

/-- What is not finite times zero is not a number. -/
theorem mul_zero_nonfinite (sign : Sign) :
    UnpackedFloat.mul spec x (.zero sign) = .notANumber := by
  obtain rfl | ⟨sign, rfl⟩ := nonfinite_cases nonfinite <;> rfl

end Nonfinite

end RootFinding.Binary
