import RootFinding.Bag.Walk
import RootFinding.Poly.Basic

/-!
# Polynomials with known roots

A test case is a polynomial built from roots that a stream yields and scaled by a number
from another. `rootsAgree` compares roots that were found with those that were meant, and
`Poly.largestResidual` measures how far from zero a polynomial is at some points.
-/

namespace RootFinding

/-- The next values of a stream, at most `n` of them, and the stream after them. -/
def takeSamples {σ α : Type} [Std.Stream σ α] : Nat → σ → List α × σ
  | 0, stream => ([], stream)
  | n + 1, stream =>
      match Std.Stream.next? stream with
      | none => ([], stream)
      | some (value, stream) =>
          let (values, stream) := takeSamples n stream
          (value :: values, stream)

/-- The next value of a stream that owes one. -/
def drawSample {σ α : Type} [Std.Stream σ α] (stream : σ) : Except Fault (α × σ) :=
  match Std.Stream.next? stream with
  | some drawn => .ok drawn
  | none => .error .exhaustedStream

/-- A polynomial with its roots. -/
structure TestCase (K : Type) where
  poly : Poly K
  roots : List K

namespace TestCase

variable {K R σ τ : Type} [Zero K] [One K] [Sub K] [Mul K] [Std.Stream σ K] [Std.Stream τ K]

/-- The polynomial with these roots, scaled by the next value of a stream. -/
def ofRoots (roots : List K) (scales : τ) : Except Fault (TestCase K × τ) := do
  let (scale, scales) ← drawSample scales
  return (⟨(Poly.ofRoots roots).scale scale, roots⟩, scales)

/-- A test case with the next `degree` values of a stream as roots, and both streams after
it. -/
def random (samples : σ) (scales : τ) (degree : Nat) : Except Fault (TestCase K × σ × τ) := do
  let (roots, samples) := takeSamples degree samples
  let (testCase, scales) ← ofRoots roots scales
  return (testCase, samples, scales)

/-- A test case whose roots come in conjugate pairs, and both streams after it. An odd
degree brings the real part of one more sample. -/
def conjugate [Scalar R] [Coefficient K R] (samples : σ) (scales : τ) (degree : Nat) :
    Except Fault (TestCase K × σ × τ) := do
  let (halves, samples) := takeSamples (degree / 2) samples
  let pairs := halves.flatMap fun z => [z, Coefficient.conj z]
  if degree % 2 == 1 then
    let (z, samples) ← drawSample samples
    let (testCase, scales) ← ofRoots (pairs ++ [Coefficient.ofParts (Coefficient.re z) 0]) scales
    return (testCase, samples, scales)
  else
    let (testCase, scales) ← ofRoots pairs scales
    return (testCase, samples, scales)

end TestCase

section Check

variable {K R : Type} [Sub K] [Scalar R] [Coefficient K R]

/-- The index and the distance of the first of the nearest candidates. Candidates no nearer
than the largest finite distance are passed over; if all are, the index is zero. -/
def nearest (target : K) (candidates : List K) : Nat × R :=
  candidates.zipIdx.foldl
    (fun best (candidate, index) =>
      let distance := Coefficient.abs (target - candidate)
      if distance < best.2 then (index, distance) else best)
    (0, Scalar.largest)

/-- Whether each expected value in turn takes the nearest that is left, within a tolerance. -/
def takeNearest (tolerance : R) : List K → List K → Bool
  | [], _ => true
  | target :: targets, found =>
      let (index, distance) := nearest target found
      if tolerance < distance then false else takeNearest tolerance targets (found.eraseIdx index)

/-- Whether the roots that were found are as many as expected and each expected one finds a
partner within a tolerance. -/
def rootsAgree (found : Bag K) (expected : List K) (tolerance : R) : Bool :=
  let found := found.toList
  found.length == expected.length && takeNearest tolerance expected found

/-- The largest modulus of the values of a polynomial at some points; zero without points. -/
def Poly.largestResidual [Zero K] [Add K] [Mul K] (p : Poly K) (points : Bag K) : R :=
  (points.toList.map fun z => Coefficient.abs (p.eval z)).foldl Scalar.maximum 0

end Check

end RootFinding
