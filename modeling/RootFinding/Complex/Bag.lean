import RootFinding.Bag.Matching
import RootFinding.Complex.Basic

/-!
# Bags of complex numbers

Closeness by the distance between points, and a sorted list of the elements.
-/

namespace RootFinding.Bag

/-- Whether the elements of two bags are matched so that partners are equal or nearer to
each other than `tolerance`. -/
def isNear {R : Type} [RealFunctions R] (a b : Bag (Complex R)) (tolerance : R) :
    Except Fault Bool :=
  a.pairsUnder (fun z w => (z - w).abs < tolerance) b

/-- The elements in lexicographic order. -/
def sorted {R : Type} [Scalar R] (bag : Bag (Complex R)) : List (Complex R) :=
  Complex.sort bag.toList

end RootFinding.Bag
