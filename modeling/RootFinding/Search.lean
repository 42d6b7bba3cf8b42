import RootFinding.Search.ClosedForm
import RootFinding.Search.Iteration

/-!
# Root search

A search reduces the coefficients, chooses a method by the degree that remains and by its
options, and reports the roots with their multiplicities. `Poly.search` refuses a degree
that the options leave without a method; `Poly.roots` uses the default options, which leave
none.

The closed form of a quartic walks a table on the way. Its order is an argument of every search, and
by default the order in which the entries stand.
-/

namespace RootFinding

/-- How the roots were computed. -/
inductive Method where
  /-- By formula; also where a constant remains, which has no roots. -/
  | closedForm
  /-- By simultaneous iteration. -/
  | iteration
  deriving Repr, DecidableEq

/-- The roots of a polynomial, and how they were found. -/
structure Report (K : Type) where
  /-- Every root, as often as its multiplicity. -/
  roots : Bag K
  method : Method
  /-- The steps of the iteration; none for a closed form. -/
  iterations : Nat
  /-- False exactly if the cap was reached before the estimates settled. The roots are then
  the last estimates. -/
  converged : Bool
  deriving Repr

/-- The highest degree with a closed form. -/
def maxClosedFormDegree : Nat := 4

/-- The cap of an iteration unless another is asked for. -/
def defaultMaxIterations : Nat := 1000

/-- What is asked of a root search. -/
structure SearchOptions (R : Type) [Scalar R] where
  /-- Use a closed form where there is one. -/
  preferClosedForm : Bool := true
  /-- Whether iteration may be used at all. If not, a closed form is used wherever there is
  one. -/
  allowIteration : Bool := true
  /-- The estimates have settled when none moves by more than this. -/
  tolerance : R := Scalar.epsilon
  /-- The most steps of an iteration. -/
  maxIterations : Nat := defaultMaxIterations

/-- Whether a closed form answers for a reduced degree. -/
def SearchOptions.usesClosedForm {R : Type} [Scalar R] (options : SearchOptions R) (degree : Nat) :
    Bool :=
  degree == 0 ||
    (degree ≤ maxClosedFormDegree && (options.preferClosedForm || !options.allowIteration))

namespace Poly

variable {K R : Type} [Zero K] [One K] [Add K] [Sub K] [Neg K] [Mul K] [Div K] [BEq K]
  [Scalar R] [Coefficient K R]

/-- Find all roots with the method that the options choose. -/
def findRoots (p : Poly K) (options : SearchOptions R) (order : Bag.TableOrder K := .asStored) :
    Reported K (Report K) := do
  let reduction ← reduce p.coeffs
  let zeroRoots := List.replicate reduction.zeros 0
  if options.usesClosedForm reduction.degree then
    Traced.report [.closedForm reduction.degree]
    let roots ← ClosedForm.solve order reduction.core
    return { roots := ← roots.insertAll zeroRoots
             method := .closedForm
             iterations := 0
             converged := true }
  else
    Traced.report [.iteration reduction.degree]
    let found ← Iteration.solve reduction.core options.tolerance options.maxIterations
    let roots ← Bag.ofList found.points
    return { roots := ← roots.insertAll zeroRoots
             method := .iteration
             iterations := found.steps
             converged := found.settled }

/-- Find all roots, or say that the options leave no method for the degree. -/
def search (p : Poly K) (options : SearchOptions R) (order : Bag.TableOrder K := .asStored) :
    Traced Error (Event K) (Report K) := do
  let reduction ← reduce p.coeffs
  if maxClosedFormDegree < reduction.degree && !options.allowIteration then
    Traced.fail (.unsupportedDegree reduction.degree)
  else
    (p.findRoots options order).mapError .fault

/-- All roots, with or without closed forms and otherwise by the default options. -/
def roots (p : Poly K) (preferClosedForm : Bool) (order : Bag.TableOrder K := .asStored) :
    Reported K (Bag K) := do
  return (← p.findRoots { preferClosedForm } order).roots

end Poly

variable {R : Type} [RealFunctions R]

/-- The roots of the polynomial with these coefficients. -/
def rootsOfCoeffs (coeffs : List (Complex R)) (preferClosedForm : Bool)
    (order : Bag.TableOrder (Complex R) := .asStored) : Except Error (Bag (Complex R)) := do
  let p ← Poly.ofList? coeffs
  ((p.roots preferClosedForm order).mapError .fault).outcome

/-- The roots of the polynomial with these real coefficients. -/
def rootsOfReals (coeffs : List R) (preferClosedForm : Bool)
    (order : Bag.TableOrder (Complex R) := .asStored) : Except Error (Bag (Complex R)) := do
  let p ← Poly.ofReals? coeffs
  ((p.roots preferClosedForm order).mapError .fault).outcome

end RootFinding
