/-!
# Errors and faults

An error is an answer to a request that cannot be met. A fault is a promise of the library's
own that does not hold: a counter without room, a formula's side condition, a sample that a
caller owes. Each cause is a constructor, and its wording is in one place.
-/

namespace RootFinding

/-- A broken promise, which ends a computation without an answer. -/
inductive Fault where
  /-- A count, or a sum of counts, leaves the range of a counter. -/
  | countOverflow
  /-- The least value of a range is not below or equal to its greatest. -/
  | reversedRange
  /-- A stream ended before every sample was drawn. -/
  | exhaustedStream
  /-- A closed form was asked for a degree that has none. -/
  | noClosedForm (degree : Nat)
  /-- The resolvent of a quartic came back without a root. -/
  | rootlessResolvent
  /-- The divisor of Ferrari's formula is zero although the depressed quartic has a linear
  term. -/
  | vanishingDivisor
  /-- An iteration was asked for a constant. -/
  | iterationOnConstant
  /-- An iteration was asked for a polynomial whose leading coefficient is negligible. -/
  | vanishingLead
  deriving Repr, DecidableEq

/-- The wording of a fault. -/
def Fault.message : Fault → String
  | .countOverflow => "attempt to add with overflow"
  | .reversedRange => "minimum should be smaller or equal to maximum"
  | .exhaustedStream => "rng stream should be infinite"
  | .noClosedForm degree =>
      "internal error: entered unreachable code: no closed form for degree " ++ toString degree
  | .rootlessResolvent => "a cubic always has three roots"
  | .vanishingDivisor => "p + 2y vanished for a depressed quartic that is not biquadratic"
  | .iterationOnConstant => "an iteration needs a degree of at least one"
  | .vanishingLead => "an iteration needs a leading coefficient that is not zero"

/-- Why a request has no answer. -/
inductive Error where
  /-- A polynomial was given no coefficients. -/
  | noCoefficients
  /-- Every coefficient of a polynomial is negligible. -/
  | zeroPolynomial
  /-- A degree above the closed forms, with the iteration ruled out. -/
  | unsupportedDegree (degree : Nat)
  /-- A promise of the library failed on the way. -/
  | fault (cause : Fault)
  deriving Repr, DecidableEq

/-- The wording of an error. -/
def Error.message : Error → String
  | .noCoefficients => "invalid polynomial: no coefficients"
  | .zeroPolynomial => "invalid polynomial: the zero polynomial has no defined roots"
  | .unsupportedDegree degree =>
      "no closed form for degree " ++ toString degree ++ " and the iterative solver is disabled"
  | .fault cause => cause.message

end RootFinding
