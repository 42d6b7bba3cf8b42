import RootFinding.Coefficient
import RootFinding.Search.Event

/-!
# Reduction

Negligible coefficients at the front lower the degree, and negligible ones at the back are
roots at the origin. Both are taken off before a method is chosen. At least one coefficient
always stays.
-/

namespace RootFinding

/-- A list of coefficients in three parts. -/
structure Reduction (K : Type) where
  /-- Leading coefficients left out. -/
  dropped : List K
  /-- The coefficients that remain. -/
  core : List K
  /-- The number of constant terms factored out, each a root at the origin. -/
  zeros : Nat

namespace Reduction

variable {K R : Type} [Coefficient K R]

/-- A list without its negligible front, except that its last coefficient stays. -/
def trimFront : List K → List K
  | c :: next :: rest =>
      if Coefficient.isNegligible c then trimFront (next :: rest) else c :: next :: rest
  | coeffs => coeffs

/-- A list without its negligible back, except that its first coefficient stays. -/
def trimBack (coeffs : List K) : List K := (trimFront coeffs.reverse).reverse

/-- Trim the front of a list and then its back. -/
def ofCoeffs (coeffs : List K) : Reduction K :=
  let front := trimFront coeffs
  let core := trimBack front
  { dropped := coeffs.take (coeffs.length - front.length)
    core
    zeros := front.length - core.length }

/-- The degree that remains. -/
def degree (reduction : Reduction K) : Nat := reduction.core.length - 1

/-- One event for each coefficient taken off. -/
def events (reduction : Reduction K) : List (Event K) :=
  reduction.dropped.map .droppedLead ++ List.replicate reduction.zeros .factoredZero

end Reduction

/-- Reduce a list of coefficients, with an event for each one taken off. -/
def reduce {ε K R : Type} [Coefficient K R] (coeffs : List K) :
    Traced ε (Event K) (Reduction K) := do
  let reduction := Reduction.ofCoeffs coeffs
  Traced.report reduction.events
  return reduction

end RootFinding
