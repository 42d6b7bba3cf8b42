import RootFinding.Binary.Format

/-!
# Shortest decimals

The decimal text of a binary number needs only as many digits as tell it from its
neighbours. `shortest` looks at ever finer decimal grids and stops at the first with a point
that rounds to the number. On that grid it takes the point nearest to the number, and of two
equally near the upper.

All quantities are integers: a point `candidate * 10 ^ place` and a binary number are
compared after multiplying both with the powers that their exponents lack.
-/

namespace RootFinding

/-- The decimal number `digits * 10 ^ exponent`. -/
structure Decimal where
  digits : Nat
  exponent : Int
  deriving Repr, DecidableEq

namespace Decimal

open Binary

/-- The numbers that round to one binary magnitude, in units of `2 ^ exponent`. -/
structure Neighbourhood where
  lower : Nat
  centre : Nat
  upper : Nat
  exponent : Int
  /-- Whether both ends round to the centre. -/
  closed : Bool
  deriving Repr

/-- Everything within half a place of a magnitude rounds to it. Below a power of two the
places are half as wide, unless they already are the narrowest. A half rounds to an even
significand. -/
def Neighbourhood.ofMagnitude (format : Format) (significand : Nat) (exponent : Int) :
    Neighbourhood where
  lower :=
    if significand == 2 ^ (format.precision - 1) && format.minExponent < exponent then
      4 * significand - 1
    else 4 * significand - 2
  centre := 4 * significand
  upper := 4 * significand + 2
  exponent := exponent - 2
  closed := significand % 2 == 0

namespace Neighbourhood

/-- The point of the grid of step `10 ^ place` that lies in the neighbourhood nearest its
centre. -/
def gridPoint? (near : Neighbourhood) (place : Int) : Option Nat :=
  let scale (n : Nat) : Nat := n * 2 ^ near.exponent.toNat * 10 ^ (-place).toNat
  let step := 2 ^ (-near.exponent).toNat * 10 ^ place.toNat
  let holds (candidate : Nat) : Bool :=
    if near.closed then scale near.lower ≤ candidate * step && candidate * step ≤ scale near.upper
    else scale near.lower < candidate * step && candidate * step < scale near.upper
  let below := scale near.centre / step
  let nearer := if 2 * (scale near.centre % step) < step then below else below + 1
  if holds nearer then some nearer
  else if holds below then some below
  else if holds (below + 1) then some (below + 1)
  else none

/-- The coarsest grid with a point in the neighbourhood, among `places` grids from `place`
down. -/
def search (near : Neighbourhood) : Nat → Int → Option Decimal
  | 0, _ => none
  | places + 1, place =>
      match near.gridPoint? place with
      | some digits => some ⟨digits, place⟩
      | none => near.search places (place - 1)

end Neighbourhood

/-- A power of ten above a binary magnitude, as its exponent: 30103 / 100000 exceeds the
decimal logarithm of two by little enough for every exponent of a format. -/
def placeAbove (significand : Nat) (exponent : Int) : Int :=
  (exponent + (significand.log2 + 1 : Nat)) * 30103 / 100000 + 1

/-- The shortest decimal that reads back as a binary magnitude.

A format of `precision` bits needs at most `precision / 3 + 2` digits, so that the grids
searched always hold one. -/
def shortest (format : Format) (significand : Nat) (exponent : Int) : Decimal :=
  if significand == 0 then ⟨0, 0⟩
  else
    ((Neighbourhood.ofMagnitude format significand exponent).search (format.precision / 3 + 4)
      (placeAbove significand exponent)).getD ⟨0, 0⟩

end Decimal

end RootFinding
