import Mathlib
import RootFinding.Binary.Hardware
import RootFinding.Complex.Basic

/-!
# The sign of a zero

Equal hardware numbers are identical but for the sign of a zero. A difference keeps that: it is the
same number, or another zero. The length of a vector does not look at signs at all, so that the
distance between two points is the same number whichever of equal points are taken.
-/

namespace RootFinding

open Float.Model Float.Model.UnpackedFloat

namespace Binary

/-- A number without the sign of a zero. -/
def withoutZeroSign : UnpackedFloat → UnpackedFloat
  | .zero _ => .zero .positive
  | x => x

/-- Signs compare as equal exactly if they are one. -/
theorem sign_eq_of_compare {sign other : Sign} : compare sign other = .eq ↔ sign = other := by
  constructor
  · intro same
    cases sign <;> cases other <;> first | rfl | cases same
  · rintro rfl
    cases sign <;> rfl

/-- Numbers are equal if they are one but for the sign of a zero, and are numbers. -/
theorem unpacked_beq_iff (x y : UnpackedFloat) :
    x.beq y = true ↔ x.isNaN = false ∧ withoutZeroSign x = withoutZeroSign y := by
  rw [UnpackedFloat.beq, beq_iff_eq]
  cases x with
  | notANumber => simp [UnpackedFloat.compare, UnpackedFloat.isNaN]
  | infinity sign =>
      cases y <;> cases sign <;>
        simp [UnpackedFloat.compare, UnpackedFloat.isNaN, withoutZeroSign, sign_eq_of_compare]
  | zero sign =>
      cases y with
      | finite other | infinity other =>
          cases other <;> simp [UnpackedFloat.compare, UnpackedFloat.isNaN, withoutZeroSign]
      | zero | notANumber => simp [UnpackedFloat.compare, UnpackedFloat.isNaN, withoutZeroSign]
  | finite sign =>
      cases y with
      | finite other =>
          cases other <;> cases sign <;>
            simp [UnpackedFloat.compare, UnpackedFloat.isNaN, withoutZeroSign,
              Ordering.then_eq_eq, and_comm]
      | infinity other =>
          cases other <;> simp [UnpackedFloat.compare, UnpackedFloat.isNaN, withoutZeroSign]
      | zero | notANumber =>
          cases sign <;> simp [UnpackedFloat.compare, UnpackedFloat.isNaN, withoutZeroSign]

/-- The sign of a zero does not matter for being a number. -/
theorem isNaN_withoutZeroSign (x : UnpackedFloat) : (withoutZeroSign x).isNaN = x.isNaN := by
  cases x <;> rfl

/-- Equality of unpacked numbers does not depend on the order. -/
theorem unpacked_beq_symm {x y : UnpackedFloat} (same : x.beq y = true) : y.beq x = true := by
  obtain ⟨number, same⟩ := (unpacked_beq_iff x y).mp same
  refine (unpacked_beq_iff y x).mpr ⟨?_, same.symm⟩
  rw [← isNaN_withoutZeroSign, ← same, isNaN_withoutZeroSign, number]

/-- Equality of unpacked numbers is transitive. -/
theorem unpacked_beq_trans {x y z : UnpackedFloat} (first : x.beq y = true)
    (second : y.beq z = true) : x.beq z = true := by
  obtain ⟨number, first⟩ := (unpacked_beq_iff x y).mp first
  obtain ⟨_, second⟩ := (unpacked_beq_iff y z).mp second
  exact (unpacked_beq_iff x z).mpr ⟨number, first.trans second⟩

/-- What is a number is equal to itself. -/
theorem unpacked_beq_self (x : UnpackedFloat) : x.beq x = !x.isNaN := by
  rw [Bool.eq_iff_iff, unpacked_beq_iff]
  simp

/-- The signs of zeros decide no more than the sign of a zero difference. -/
theorem withoutZeroSign_sub (spec : Float.Model.Format) (x y : UnpackedFloat) :
    withoutZeroSign (sub spec x y) =
      withoutZeroSign (sub spec (withoutZeroSign x) (withoutZeroSign y)) := by
  cases x with
  | zero sign =>
      cases y with
      | zero other => cases sign <;> cases other <;> rfl
      | finite | infinity | notANumber => rfl
  | finite | infinity | notANumber => cases y <;> rfl

/-- A datum without its sign. -/
def Datum.unsigned : Datum → Datum
  | .nan => .nan
  | .infinite _ => .infinite false
  | .finite _ significand exponent => .finite false significand exponent

/-- The length of a vector does not depend on signs. -/
theorem hypot_congr (format : Format) {x x' y y' : Nat}
    (sameX : (format.decode x).unsigned = (format.decode x').unsigned)
    (sameY : (format.decode y).unsigned = (format.decode y').unsigned) :
    format.hypot x y = format.hypot x' y' := by
  unfold Format.hypot
  cases hx : format.decode x <;> cases hx' : format.decode x' <;>
    cases hy : format.decode y <;> cases hy' : format.decode y' <;>
      simp_all [Datum.unsigned]

/-- The bits of a number tell the same datum but for its sign, whatever the sign of a zero. -/
theorem unsigned_decode_pack (x : UnpackedFloat) :
    (binary64.decode (Float.Model.pack x).toBits.toNat).unsigned =
      (binary64.decode (Float.Model.pack (withoutZeroSign x)).toBits.toNat).unsigned := by
  cases x with
  | zero sign => cases sign <;> decide
  | finite | infinity | notANumber => rfl

/-- The same holds with half as many bits. -/
theorem unsigned_decode_pack32 (x : UnpackedFloat) :
    (binary32.decode (Float32.Model.pack x).toBits.toNat).unsigned =
      (binary32.decode (Float32.Model.pack (withoutZeroSign x)).toBits.toNat).unsigned := by
  cases x with
  | zero sign => cases sign <;> decide
  | finite | infinity | notANumber => rfl

end Binary

open Binary

/-- Scalars of which equal ones are one number, so that distances do not tell them apart. Every
value is equal to itself but one that is not a number. -/
class PointScalar (R : Type) [RealFunctions R] : Prop extends PartialEquivBEq R where
  beq_self : ∀ x : R, (x == x) = !Scalar.isNaN x
  hypot_sub_congr : ∀ {x x' y y' u u' v v' : R}, (x == x') = true → (y == y') = true →
    (u == u') = true → (v == v') = true →
      RealFunctions.hypot (x - y) (u - v) = RealFunctions.hypot (x' - y') (u' - v')

/-- Differences of equal numbers have the same bits but for the sign. -/
theorem unsigned_sub_congr {x x' y y' : Float} (sameX : (x == x') = true)
    (sameY : (y == y') = true) :
    (binary64.decode (x - y).toBits.toNat).unsigned =
      (binary64.decode (x' - y').toBits.toNat).unsigned := by
  change (binary64.decode (Float.Model.pack (sub _ _ _)).toBits.toNat).unsigned =
    (binary64.decode (Float.Model.pack (sub _ _ _)).toBits.toNat).unsigned
  rw [unsigned_decode_pack, withoutZeroSign_sub, ((unpacked_beq_iff _ _).mp sameX).2,
    ((unpacked_beq_iff _ _).mp sameY).2, ← withoutZeroSign_sub, ← unsigned_decode_pack]

/-- The same holds with half as many bits. -/
theorem unsigned_sub_congr32 {x x' y y' : Float32} (sameX : (x == x') = true)
    (sameY : (y == y') = true) :
    (binary32.decode (x - y).toBits.toNat).unsigned =
      (binary32.decode (x' - y').toBits.toNat).unsigned := by
  change (binary32.decode (Float32.Model.pack (sub _ _ _)).toBits.toNat).unsigned =
    (binary32.decode (Float32.Model.pack (sub _ _ _)).toBits.toNat).unsigned
  rw [unsigned_decode_pack32, withoutZeroSign_sub, ((unpacked_beq_iff _ _).mp sameX).2,
    ((unpacked_beq_iff _ _).mp sameY).2, ← withoutZeroSign_sub, ← unsigned_decode_pack32]

instance : PointScalar Float where
  symm := unpacked_beq_symm
  trans := unpacked_beq_trans
  beq_self x := unpacked_beq_self x.toModel.unpack
  hypot_sub_congr sameX sameY sameU sameV := by
    change onFloats _ _ _ = onFloats _ _ _
    rw [onFloats, onFloats, hypot_congr _ (unsigned_sub_congr sameX sameY)
      (unsigned_sub_congr sameU sameV)]

instance : PointScalar Float32 where
  symm := unpacked_beq_symm
  trans := unpacked_beq_trans
  beq_self x := unpacked_beq_self x.toModel.unpack
  hypot_sub_congr sameX sameY sameU sameV := by
    change onFloat32s _ _ _ = onFloat32s _ _ _
    rw [onFloat32s, onFloat32s, hypot_congr _ (unsigned_sub_congr32 sameX sameY)
      (unsigned_sub_congr32 sameU sameV)]

namespace Complex

variable {R : Type} [RealFunctions R] [PointScalar R]

omit [PointScalar R] in
/-- Complex numbers are equal exactly if their parts are. -/
theorem beq_iff {z w : Complex R} :
    (z == w) = true ↔ (z.re == w.re) = true ∧ (z.im == w.im) = true :=
  Bool.and_eq_true _ _ ▸ Iff.rfl

instance : PartialEquivBEq (Complex R) where
  symm same := by
    rw [beq_iff] at same ⊢
    exact ⟨BEq.symm same.1, BEq.symm same.2⟩
  trans first second := by
    rw [beq_iff] at first second ⊢
    exact ⟨BEq.trans first.1 second.1, BEq.trans first.2 second.2⟩

/-- A point without a part that is not a number is equal to itself. -/
theorem beq_self (z : Complex R) : (z == z) = !z.isNaN := by
  change (z.re == z.re && z.im == z.im) = !(Scalar.isNaN z.re || Scalar.isNaN z.im)
  rw [PointScalar.beq_self, PointScalar.beq_self, Bool.not_or]

/-- The distance between points is the same for equal points. -/
theorem abs_sub_congr {z z' w w' : Complex R} (sameZ : (z == z') = true)
    (sameW : (w == w') = true) :
    (z - w).abs = (z' - w').abs := by
  obtain ⟨sameRe, sameIm⟩ := beq_iff.mp sameZ
  obtain ⟨sameReToo, sameImToo⟩ := beq_iff.mp sameW
  exact PointScalar.hypot_sub_congr sameRe sameReToo sameIm sameImToo

end Complex

end RootFinding
