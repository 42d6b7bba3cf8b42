import RootFinding.Binary.Format
import RootFinding.Binary.Root

/-!
# Correctly rounded operations

Square root of a sum of squares, cube root and multiplication with addition, each computed
exactly in integers and rounded once to a format. Every function takes and returns bit
patterns.
-/

namespace RootFinding.Binary.Format

variable (format : Format)

/-- Magnitude bits of the root of `significand * 2 ^ exponent`, rounded once.

The radicand is shifted so that its integer root has two digits more than the format keeps;
the digit that `stickyRoot` appends then decides every rounding as the exact root would. -/
def roundRoot (degree significand : Nat) (exponent : Int) : Nat :=
  if significand == 0 then 0
  else
    let shift := rootShift degree (format.precision + 2) (significand.log2 + 1) exponent
    format.roundMagnitude (stickyRoot degree significand shift) ((exponent - shift) / degree - 1)

/-- Length of the vector of two values. An infinite side makes it infinite, whatever the
other side is. -/
def hypot (x y : Nat) : Nat :=
  match format.decode x, format.decode y with
  | .infinite _, _ => format.infinityBits
  | _, .infinite _ => format.infinityBits
  | .nan, _ => format.nanBits
  | _, .nan => format.nanBits
  | .finite _ m p, .finite _ n q =>
      let sum := (Dyadic.mul ⟨m, p⟩ ⟨m, p⟩).add (Dyadic.mul ⟨n, q⟩ ⟨n, q⟩)
      format.roundRoot 2 sum.significand.toNat sum.exponent

/-- Cube root, with the sign of its argument. -/
def cbrt (x : Nat) : Nat :=
  match format.decode x with
  | .nan => format.nanBits
  | .infinite _ => x
  | .finite negative significand exponent =>
      (if negative then format.signWeight else 0) + format.roundRoot 3 significand exponent

/-- `x * y + z` for finite values, rounded once. A sum of zero is negative only when both
the product and the addend are. -/
def mulAdd (x y z : Bool × Nat × Int) : Nat :=
  let exact (v : Bool × Nat × Int) := Dyadic.ofFields v.1 v.2.1 v.2.2
  let sum := ((exact x).mul (exact y)).add (exact z)
  let negative := if sum.significand == 0 then (x.1 != y.1) && z.1 else sum.significand < 0
  format.encode negative sum.significand.natAbs sum.exponent

end RootFinding.Binary.Format
