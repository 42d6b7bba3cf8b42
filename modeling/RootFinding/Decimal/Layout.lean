import RootFinding.Decimal.Shortest
import RootFinding.Binary.Hardware

/-!
# Decimal text

A layout says where positional notation ends and whether a whole number keeps a decimal
point. `BinaryFloat.text` writes the shortest decimal of a scalar in a layout; the two
layouts of this library are `Layout.plain`, for readers, and `Layout.pointed`, for exact
records.
-/

namespace RootFinding

/-- How the decimal text of a number is laid out. -/
structure Layout where
  /-- Least and greatest decimal exponent of a leading digit that is written positionally,
  where there are such bounds. Zero is always positional. -/
  positional : Option (Int × Int)
  /-- Whether positional text of a whole number ends in a point and a zero. -/
  keepsPoint : Bool

namespace Layout

/-- Never an exponent, never a needless point. -/
def plain : Layout := ⟨none, false⟩

/-- Positional from a ten-thousandth up to sixteen digits before the point, always with a
point; an exponent elsewhere. -/
def pointed : Layout := ⟨some (-4, 15), true⟩

/-- Whether a decimal with this leading exponent is written positionally. -/
def isPositional (layout : Layout) (lead : Int) : Bool :=
  match layout.positional with
  | none => true
  | some (least, greatest) => least ≤ lead && lead ≤ greatest

end Layout

namespace Decimal

/-- A run of zeros. -/
def zeros (count : Nat) : List Char :=
  List.replicate count '0'

/-- Digits with the point in its place. -/
def positionalText (keepsPoint : Bool) (figures : List Char) (exponent : Int) : List Char :=
  let whole := figures.length + exponent
  if 0 ≤ exponent then figures ++ zeros exponent.toNat ++ (if keepsPoint then ['.', '0'] else [])
  else if 0 < whole then figures.take whole.toNat ++ '.' :: figures.drop whole.toNat
  else '0' :: '.' :: zeros (-whole).toNat ++ figures

/-- One digit before the point, and the decimal exponent of that digit after the letter. -/
def exponentText (figures : List Char) (exponent : Int) : List Char :=
  let mantissa := match figures with
    | lead :: rest@(_ :: _) => lead :: '.' :: rest
    | single => single
  mantissa ++ 'e' :: (toString (exponent + figures.length - 1)).toList

/-- The text of a decimal in a layout. -/
def text (layout : Layout) (x : Decimal) : String :=
  let figures := Nat.toDigits 10 x.digits
  String.ofList <|
    if x.digits == 0 || layout.isPositional (x.exponent + figures.length - 1) then
      positionalText layout.keepsPoint figures x.exponent
    else exponentText figures x.exponent

end Decimal

/-- The text of a datum: the shortest decimal that reads back, or the name of a special
value. -/
def Binary.Datum.text (format : Binary.Format) (layout : Layout) : Binary.Datum → String
  | .nan => "NaN"
  | .infinite negative => if negative then "-inf" else "inf"
  | .finite negative significand exponent =>
      (if negative then "-" else "") ++ (Decimal.shortest format significand exponent).text layout

/-- The text of a scalar in a layout. -/
def BinaryFloat.text {R : Type} [BinaryFloat R] (layout : Layout) (x : R) : String :=
  (decode x).text (format R) layout

end RootFinding
