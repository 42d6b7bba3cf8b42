import RootFinding.Scalar
import RootFinding.Binary.Rounded

/-!
# Hardware scalars

The 64- and 32-bit numbers as scalars. Arithmetic, comparison and square root are the
hardware's. Cube root and vector length are correctly rounded here, so that they agree on
every platform and can be evaluated in a proof. The remaining elementary functions are the
platform's.
-/

namespace RootFinding

open Binary

/-- Scalars that have an interchange format. -/
class BinaryFloat (R : Type) extends RealFunctions R where
  format : Format
  toBits : R → Nat
  ofBits : Nat → R

namespace BinaryFloat

variable {R : Type} [BinaryFloat R]

/-- The number that a scalar stands for. -/
def decode (x : R) : Datum :=
  (format R).decode (toBits x)

/-- A key that equal scalars share: adding zero gives both zeros the same sign. -/
def key (x : R) : UInt64 :=
  (toBits (x + 0)).toUInt64

/-- `x * y + z` rounded once. Where an operand is not finite the product is exact or the
addend decides, so separate operations give the same result. -/
def mulAdd (x y z : R) : R :=
  match decode x, decode y, decode z with
  | .finite sx mx ex, .finite sy my ey, .finite sz mz ez =>
      ofBits ((format R).mulAdd (sx, mx, ex) (sy, my, ey) (sz, mz, ez))
  | .finite .., .finite .., _ => z
  | _, _, _ => x * y + z

end BinaryFloat

namespace Binary

/-- A 64-bit operation from one on bit patterns. -/
def onFloat (operation : Nat → Nat) (x : Float) : Float :=
  Float.ofBits (operation x.toBits.toNat).toUInt64

/-- A 64-bit operation of two operands from one on bit patterns. -/
def onFloats (operation : Nat → Nat → Nat) (x y : Float) : Float :=
  Float.ofBits (operation x.toBits.toNat y.toBits.toNat).toUInt64

/-- A 32-bit operation from one on bit patterns. -/
def onFloat32 (operation : Nat → Nat) (x : Float32) : Float32 :=
  Float32.ofBits (operation x.toBits.toNat).toUInt32

/-- A 32-bit operation of two operands from one on bit patterns. -/
def onFloat32s (operation : Nat → Nat → Nat) (x y : Float32) : Float32 :=
  Float32.ofBits (operation x.toBits.toNat y.toBits.toNat).toUInt32

end Binary

instance : Scalar Float where
  decidableLT := inferInstance
  decidableLE := inferInstance
  abs := Float.abs
  epsilon := Float.ofBits 0x3cb0000000000000
  infinity := Float.ofBits 0x7ff0000000000000
  largest := Float.ofBits 0x7fefffffffffffff
  isNaN := Float.isNaN
  isFinite := Float.isFinite
  signBit x := x.toBits >>> 63 == 1

instance : RealFunctions Float where
  sqrt := Float.sqrt
  cbrt := onFloat binary64.cbrt
  exp := Float.exp
  log := Float.log
  sin := Float.sin
  cos := Float.cos
  sinh := Float.sinh
  cosh := Float.cosh
  pow := Float.pow
  hypot := onFloats binary64.hypot
  atan2 := Float.atan2
  ln10 := 2.302585092994045684017991454684364208

instance : BinaryFloat Float where
  format := binary64
  toBits x := x.toBits.toNat
  ofBits bits := Float.ofBits bits.toUInt64

instance : Scalar Float32 where
  decidableLT := inferInstance
  decidableLE := inferInstance
  abs := Float32.abs
  epsilon := Float32.ofBits 0x34000000
  infinity := Float32.ofBits 0x7f800000
  largest := Float32.ofBits 0x7f7fffff
  isNaN := Float32.isNaN
  isFinite := Float32.isFinite
  signBit x := x.toBits >>> 31 == 1

instance : RealFunctions Float32 where
  sqrt := Float32.sqrt
  cbrt := onFloat32 binary32.cbrt
  exp := Float32.exp
  log := Float32.log
  sin := Float32.sin
  cos := Float32.cos
  sinh := Float32.sinh
  cosh := Float32.cosh
  pow := Float32.pow
  hypot := onFloat32s binary32.hypot
  atan2 := Float32.atan2
  ln10 := 2.302585092994045684017991454684364208

instance : BinaryFloat Float32 where
  format := binary32
  toBits x := x.toBits.toNat
  ofBits bits := Float32.ofBits bits.toUInt32

end RootFinding
