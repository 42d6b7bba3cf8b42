import RootFinding.Bag.Algebra
import RootFinding.Search.Reduction

/-!
# Closed forms

Roots of polynomials of degree four or less. Coefficients come from the highest degree down,
and the leading one is not negligible. Every formula is stated over `Coefficient`, where its
square and cube roots may be any: which root is chosen decides accuracy, not correctness.

`MonicCubic` and `DepressedQuartic` name the quantities that the formulas branch on, so that a
statement about a branch can speak of them.

A quartic needs roots of a quadratic or a cubic. These go through the same reduction and
dispatch, `solveReduced`, whose argument says what is done with a quartic: `solveCubic` has
no answer to one, and `solve` answers with `quartic`.

The formula for a quartic walks the bag of these roots, in an order that nothing determines. Roots
of the resolvent that are equally far from `-p/2` are told apart by it, so that the order is an
argument of every formula from there on.
-/

namespace RootFinding.ClosedForm

open Coefficient

variable {K R : Type} [Zero K] [One K] [Add K] [Sub K] [Neg K] [Mul K] [Div K] [BEq K]
  [Scalar R] [Coefficient K R]

/-- A coefficient divided by the leading one, unless that is one already. -/
def overLead (lead c : K) : K := if lead == 1 then c else c / lead

/-- The root of `a x + b`. -/
def linear (a b : K) : Reported K (Bag K) :=
  Bag.ofList [-overLead a b]

/-- The roots of `a x² + b x + c`.

The root of the discriminant takes the sign with which it does not cancel against `b`; the
second root comes from the product of the two. -/
def quadratic (a b c : K) : Reported K (Bag K) :=
  let discriminant := b * b - mulReal (a * c) 4.0
  let root := sqrt discriminant
  let root := if re (conj b * root) < 0 then -root else root
  let x₁ := -(b + root) / mulReal a 2.0
  let x₂ := c / (a * x₁)
  Bag.ofList [x₁, x₂]

/-- A cubic with leading coefficient one, `x³ + b x² + c x + d`. -/
structure MonicCubic (K : Type) where
  b : K
  c : K
  d : K
  deriving Repr

namespace MonicCubic

/-- The coefficients from the highest degree down. -/
def coeffs (cubic : MonicCubic K) : List K := [1, cubic.b, cubic.c, cubic.d]

/-- Zero exactly if two roots of the derivative coincide. -/
def D₀ (cubic : MonicCubic K) : K := cubic.b * cubic.b - mulReal cubic.c 3.0

/-- Zero, together with `D₀`, exactly for a triple root. -/
def D₁ (cubic : MonicCubic K) : K :=
  mulReal (cubic.b * cubic.b * cubic.b) 2.0 - mulReal (cubic.b * cubic.c) 9.0 +
    mulReal cubic.d 27.0

/-- The discriminant times `-27`: zero exactly for a multiple root. -/
def discriminant (cubic : MonicCubic K) : K :=
  cubic.D₁ * cubic.D₁ - mulReal (cubic.D₀ * cubic.D₀ * cubic.D₀) 4.0

/-- The root of a cubic that has only one. -/
def tripleRoot (cubic : MonicCubic K) : K := divReal (-cubic.b) 3.0

/-- The double root of a cubic that has one, and `D₀` not zero. -/
def doubleRoot (cubic : MonicCubic K) : K :=
  (mulReal cubic.d 9.0 - cubic.b * cubic.c) / mulReal cubic.D₀ 2.0

/-- The root beside the double root. -/
def simpleRoot (cubic : MonicCubic K) : K :=
  (mulReal (cubic.b * cubic.c) 4.0 - mulReal cubic.d 9.0 - cubic.b * cubic.b * cubic.b) / cubic.D₀

/-- The larger of the two candidates for twice a cube. One of them may be zero although no root
is multiple; the larger is not. -/
def largerCandidate (cubic : MonicCubic K) : K :=
  let root := sqrt cubic.discriminant
  let plus := cubic.D₁ + root
  let minus := cubic.D₁ - root
  if abs minus ≤ abs plus then plus else minus

/-- The root that a cube root `u` of half the candidate leads to. -/
def rootOf (cubic : MonicCubic K) (u : K) : K :=
  divReal (-(cubic.b + u + cubic.D₀ / u)) 3.0

/-- The roots that the three cube roots lead to. -/
def cardanoRoots (cubic : MonicCubic K) : List K :=
  let C := cbrt (mulReal cubic.largerCandidate 0.5)
  [C, omega * C, conj omega * C].map cubic.rootOf

/-- The roots, by their multiplicity. -/
def roots (cubic : MonicCubic K) : Reported K (Bag K) := do
  if isNegligible cubic.discriminant then
    if isNegligible cubic.D₀ then
      Traced.report [.tripleRoot]
      Bag.ofList [cubic.tripleRoot, cubic.tripleRoot, cubic.tripleRoot]
    else
      Traced.report [.doubleRoot]
      Bag.ofList [cubic.doubleRoot, cubic.doubleRoot, cubic.simpleRoot]
  else Bag.ofList cubic.cardanoRoots

end MonicCubic

/-- The roots of `a x³ + b x² + c x + d`. -/
def cubic (a b c d : K) : Reported K (Bag K) :=
  MonicCubic.roots ⟨overLead a b, overLead a c, overLead a d⟩

/-- The roots by the formula for the degree. Neither the leading coefficient nor the constant term
is negligible. -/
def solveCore (quartic : K → K → K → K → K → Reported K (Bag K)) (core : List K) :
    Reported K (Bag K) :=
  match core with
  | [_] => pure ∅
  | [a, b] => linear a b
  | [a, b, c] => quadratic a b c
  | [a, b, c, d] => cubic a b c d
  | [a, b, c, d, e] => quartic a b c d e
  | core => Traced.fail (.noClosedForm (core.length - 1))

/-- Reduce, find the roots of what remains by its degree, and add the roots at the origin. -/
def solveReduced (quartic : K → K → K → K → K → Reported K (Bag K)) (coeffs : List K) :
    Reported K (Bag K) := do
  let reduction ← reduce coeffs
  let roots ← solveCore quartic reduction.core
  roots.insertMany 0 reduction.zeros

/-- The roots of a polynomial of degree three or less. -/
def solveCubic (coeffs : List K) : Reported K (Bag K) :=
  solveReduced (fun _ _ _ _ _ => Traced.fail (.noClosedForm 4)) coeffs

/-- The last of the values with the greatest measure. A measure that cannot be compared
ties. -/
def last? (measure : K → R) : List K → Option K
  | [] => none
  | first :: rest => some <| rest.foldl
      (fun best value => if measure value < measure best then best else value) first

/-- A quartic `x⁴ + a x³ + b x² + c x + d` after the substitution `x = u - shift` that takes its
cubic term away, `u⁴ + p u² + q u + r`. -/
structure DepressedQuartic (K : Type) where
  p : K
  q : K
  r : K
  shift : K
  deriving Repr

namespace DepressedQuartic

/-- Depress `x⁴ + a x³ + b x² + c x + d`. -/
def ofMonic (a b c d : K) : DepressedQuartic K :=
  let aSq := a * a
  { p := b - divReal (mulReal aSq 3.0) 8.0
    q := divReal (aSq * a - mulReal (a * b) 4.0) 8.0 + c
    r := divReal
      (-(mulReal (aSq * aSq) 3.0) - mulReal (a * c) 64.0 + mulReal (aSq * b) 16.0) 256.0 + d
    shift := divReal a 4.0 }

/-- The cubic whose roots `y` make the quartic a difference of two squares. -/
def resolvent (quartic : DepressedQuartic K) : MonicCubic K :=
  let pSq := quartic.p * quartic.p
  { b := mulReal quartic.p 2.5
    c := mulReal pSq 2.0 - quartic.r
    d := mulReal (quartic.p * (pSq - quartic.r)) 0.5 - divReal (quartic.q * quartic.q) 8.0 }

/-- The square of the divisor that a root of the resolvent leads to. -/
def divisorSquare (quartic : DepressedQuartic K) (y : K) : K := quartic.p + mulReal y 2.0

/-- The roots of the quadratic factors that a root of the resolvent leads to. -/
def splitRoots (quartic : DepressedQuartic K) (y w : K) : List K :=
  let sum := mulReal quartic.p 3.0 + mulReal y 2.0
  let fraction := mulReal quartic.q 2.0 / w
  let plus := sqrt (-(sum + fraction))
  let minus := sqrt (-(sum - fraction))
  [mulReal (w + plus) 0.5, mulReal (-w + minus) 0.5,
    mulReal (w - plus) 0.5, mulReal (-w - minus) 0.5].map (· - quartic.shift)

/-- The roots by way of the resolvent's, in whatever order these come. Any of them will do; the
one furthest from `-p/2` keeps `q / w` small. -/
def ferrari (quartic : DepressedQuartic K) (resolventRoots : List K) : Reported K (Bag K) :=
  match last? (fun y => abs (quartic.divisorSquare y)) resolventRoots with
  | none => Traced.fail .rootlessResolvent
  | some y =>
      let w := sqrt (quartic.divisorSquare y)
      if w == 0 then Traced.fail .vanishingDivisor
      else Bag.ofList (quartic.splitRoots y w)

/-- The roots of a depressed quartic that is a quadratic in `u²`, from those of the quadratic. -/
def squareRoots (quartic : DepressedQuartic K) (square : K) : List K :=
  let u := sqrt square
  [u - quartic.shift, -u - quartic.shift]

/-- The roots. Without a linear term they are the square roots of a quadratic's. -/
def roots (quartic : DepressedQuartic K) (order : Bag.TableOrder K) : Reported K (Bag K) := do
  if isNegligible quartic.q then
    Traced.report [.depressedBiquadratic]
    let squares ← solveCubic [1, quartic.p, quartic.r]
    (squares.arranged order).flatMap quartic.squareRoots
  else
    let resolventRoots ← solveCubic quartic.resolvent.coeffs
    quartic.ferrari (resolventRoots.arranged order).toList

end DepressedQuartic

/-- The roots of `x⁴ + a x³ + b x² + c x + d`, by Ferrari's method on the depressed quartic. A
quadratic in `x²` is solved as one. -/
def monicQuartic (order : Bag.TableOrder K) (a b c d : K) : Reported K (Bag K) := do
  if isNegligible a && isNegligible c then
    Traced.report [.biquadratic]
    let squares ← solveCubic [1, b, d]
    (squares.arranged order).flatMap fun square =>
      let x := sqrt square
      [x, -x]
  else (DepressedQuartic.ofMonic a b c d).roots order

/-- The roots of `lead x⁴ + a x³ + b x² + c x + d`. -/
def quartic (order : Bag.TableOrder K) (lead a b c d : K) : Reported K (Bag K) :=
  monicQuartic order (overLead lead a) (overLead lead b) (overLead lead c) (overLead lead d)

/-- The roots of a polynomial of degree four or less. -/
def solve (order : Bag.TableOrder K) (coeffs : List K) : Reported K (Bag K) :=
  solveReduced (quartic order) coeffs

end RootFinding.ClosedForm
