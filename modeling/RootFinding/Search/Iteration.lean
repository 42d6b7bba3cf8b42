import RootFinding.Poly.Basic
import RootFinding.Search.Event

/-!
# Simultaneous iteration

All roots are improved at once: each estimate moves by the value of the polynomial there
over the product of its distances to the other estimates. A step reads only the estimates
before it. The run stops after the first step in which no estimate moves by more than a
tolerance, or at a cap.
-/

namespace RootFinding.Iteration

open Coefficient

/-- What an iteration ends with: the last estimates, in the order of the first ones. -/
structure Outcome (K : Type) where
  points : List K
  /-- The steps performed. -/
  steps : Nat
  /-- Whether the last step stayed within the tolerance. -/
  settled : Bool
  deriving Repr

variable {K R : Type} [Zero K] [One K] [Add K] [Sub K] [Mul K] [Div K]

/-- The product of the differences between a point and all estimates but the one at its
index. -/
def spread (points : List K) (index : Nat) (point : K) : K :=
  (points.eraseIdx index).foldl (fun product other => product * (point - other)) 1

/-- One step: every estimate is improved from the same estimates before. -/
def step (monic : List K) (points : List K) : List K :=
  points.mapIdx fun index point =>
    point - Poly.horner monic point / spread points index point

/-- A step keeps the number of estimates. -/
@[simp] theorem length_step (monic points : List K) :
    (step monic points).length = points.length := by
  simp [step]

/-- Whether no point of a list moves by more than a tolerance to its place in another. -/
def within [Scalar R] [Coefficient K R] (tolerance : R) (before after : List K) : Bool :=
  (before.zip after).all fun (old, new) => abs (old - new) ≤ tolerance

/-- Step until the estimates settle, at most `fuel` times after `done` steps. -/
def run [Scalar R] [Coefficient K R] (monic : List K) (tolerance : R) :
    Nat → Nat → List K → Reported K (Outcome K)
  | 0, done, points => do
      Traced.report [.unsettled done]
      return ⟨points, done, false⟩
  | fuel + 1, done, points => do
      let next := step monic points
      Traced.report [.estimates next]
      if within tolerance points next then
        Traced.report [.settled (done + 1)]
        return ⟨next, done + 1, true⟩
      else
        run monic tolerance fuel (done + 1) next

/-- The first `n` powers of a number, from one on. -/
def powers (base : K) : Nat → K → List K
  | 0, _ => []
  | n + 1, power => power :: powers base n (power * base)

omit [Zero K] [One K] [Add K] [Sub K] [Div K] in
/-- There are as many powers as asked for. -/
@[simp] theorem length_powers (base : K) (n : Nat) (power : K) :
    (powers base n power).length = n := by
  induction n generalizing power with
  | zero => rfl
  | succ n inductionHypothesis => simp [powers, inductionHypothesis]

/-- Initial estimates: powers of a number that is neither real nor a root of one, so that
they are distinct and not symmetric about the real axis. -/
def seeds [Scalar R] [Coefficient K R] (n : Nat) : List K := powers (ofParts 0.4 0.9) n 1

/-- Improve as many estimates as there are coefficients below the leading one, which is
divided out first unless it is one already. -/
def iterate [BEq K] [Scalar R] [Coefficient K R] (lead : K) (rest : List K) (tolerance : R)
    (cap : Nat) : Reported K (Outcome K) :=
  let monic := if lead == 1 then lead :: rest else (lead :: rest).map (· / lead)
  run monic tolerance cap 0 (seeds rest.length)

/-- Find all roots of a polynomial at once. There must be one to find, and the leading
coefficient must not be negligible. -/
def solve [BEq K] [Scalar R] [Coefficient K R] (coeffs : List K) (tolerance : R) (cap : Nat) :
    Reported K (Outcome K) :=
  match coeffs with
  | lead :: next :: rest =>
      if isNegligible lead then Traced.fail .vanishingLead
      else iterate lead (next :: rest) tolerance cap
  | _ => Traced.fail .iterationOnConstant

end RootFinding.Iteration
