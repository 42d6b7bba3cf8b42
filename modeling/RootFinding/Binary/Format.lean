/-!
# Binary interchange formats

A format is a pair of field widths. `Format.decode` reads a bit pattern as the number it
stands for, and `Format.roundMagnitude` rounds an exact dyadic magnitude `significand * 2 ^
exponent` to the nearest representable one, a half going to the even neighbour. Both work in
integers, so the correctly rounded operations built on them can be evaluated inside a proof.
-/

namespace RootFinding.Binary

/-- Powers are those of the integers alone, whichever others are in scope. -/
scoped instance (priority := 2000) integerPower : Pow Nat Nat := instPowNat

/-- Field widths of a binary interchange format. -/
structure Format where
  /-- Bits of a full significand, the implicit leading one included. -/
  precision : Nat
  /-- Bits of the biased exponent. -/
  exponentBits : Nat
  deriving Repr, DecidableEq

/-- The 64-bit format. -/
def binary64 : Format := ⟨53, 11⟩

/-- The 32-bit format. -/
def binary32 : Format := ⟨24, 8⟩

/-- What a bit pattern stands for. A finite datum is `significand * 2 ^ exponent` with a
sign. -/
inductive Datum where
  | nan
  | infinite (negative : Bool)
  | finite (negative : Bool) (significand : Nat) (exponent : Int)
  deriving Repr, DecidableEq

namespace Format

variable (format : Format)

/-- Exponent of the last place of the smallest magnitudes. -/
def minExponent : Int :=
  3 - (2 ^ (format.exponentBits - 1) : Nat) - format.precision

/-- Magnitude bits of infinity: all ones in the exponent field, zeros below. -/
def infinityBits : Nat :=
  (2 ^ format.exponentBits - 1) * 2 ^ (format.precision - 1)

/-- Weight of the sign bit. -/
def signWeight : Nat :=
  2 ^ (format.exponentBits + format.precision - 1)

/-- Bits of the quiet value that is not a number. -/
def nanBits : Nat :=
  format.infinityBits + 2 ^ (format.precision - 2)

/-- The number that a bit pattern stands for. -/
def decode (bits : Nat) : Datum :=
  let negative := format.signWeight ≤ bits
  let magnitude := bits % format.signWeight
  let hidden := 2 ^ (format.precision - 1)
  let field := magnitude / hidden
  let fraction := magnitude % hidden
  if magnitude == format.infinityBits then .infinite negative
  else if format.infinityBits < magnitude then .nan
  else if field == 0 then .finite negative fraction format.minExponent
  else .finite negative (hidden + fraction) (format.minExponent + (field - 1 : Nat))

/-- Integer quotient by `2 ^ shift`, rounded to nearest with a half going to the even
neighbour. -/
def roundShift (n shift : Nat) : Nat :=
  let quotient := n >>> shift
  let twiceRemainder := 2 * (n - quotient <<< shift)
  let unit := 1 <<< shift
  if unit < twiceRemainder || (twiceRemainder == unit && quotient % 2 == 1) then quotient + 1
  else quotient

/-- Magnitude bits of the representable value nearest to `significand * 2 ^ exponent`.

The result is a sum, not a pair of fields: a significand that rounding carries to the next
power of two, or a normal one's leading bit, moves into the exponent field by itself.
Magnitudes past the last finite one become infinite. -/
def roundMagnitude (significand : Nat) (exponent : Int) : Nat :=
  if significand == 0 then 0
  else
    let target :=
      max (exponent + (significand.log2 + 1 : Nat) - format.precision) format.minExponent
    let rounded :=
      if target ≤ exponent then significand <<< (exponent - target).toNat
      else roundShift significand (target - exponent).toNat
    let bits := (target - format.minExponent).toNat * 2 ^ (format.precision - 1) + rounded
    min bits format.infinityBits

/-- Bits of the representable value nearest to a signed dyadic number. -/
def encode (negative : Bool) (significand : Nat) (exponent : Int) : Nat :=
  (if negative then format.signWeight else 0) + format.roundMagnitude significand exponent

end Format

/-- The exact dyadic number `significand * 2 ^ exponent`. -/
structure Dyadic where
  significand : Int
  exponent : Int
  deriving Repr, DecidableEq

namespace Dyadic

/-- The significand once the exponent is lowered to `exponent`. -/
def significandAt (x : Dyadic) (exponent : Int) : Int :=
  x.significand * (2 ^ (x.exponent - exponent).toNat : Nat)

/-- Exact sum, at the smaller of the two exponents. -/
def add (x y : Dyadic) : Dyadic :=
  let exponent := min x.exponent y.exponent
  ⟨x.significandAt exponent + y.significandAt exponent, exponent⟩

/-- Exact product. -/
def mul (x y : Dyadic) : Dyadic :=
  ⟨x.significand * y.significand, x.exponent + y.exponent⟩

/-- The dyadic number of a finite datum's fields. -/
def ofFields (negative : Bool) (significand : Nat) (exponent : Int) : Dyadic :=
  ⟨if negative then -(significand : Int) else significand, exponent⟩

end Dyadic

end RootFinding.Binary
