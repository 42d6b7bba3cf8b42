import RootFinding.Complex.Text
import RootFinding.Fault
import RootFinding.Search.Traced

/-!
# Events of a root search

What a search reports while it runs. An event keeps the values it speaks of; its wording and
its level are functions of it, so a theorem about the order of events needs no text.
-/

namespace RootFinding

/-- How much detail an event brings, from the most to the least. -/
inductive Level where
  | trace
  | debug
  | warn
  deriving Repr, DecidableEq

/-- Something that a root search reports. -/
inductive Event (K : Type) where
  /-- A leading coefficient is negligible and left out. -/
  | droppedLead (coefficient : K)
  /-- A constant term is negligible and counted as a root at the origin. -/
  | factoredZero
  /-- A closed form was chosen for the reduced degree. -/
  | closedForm (degree : Nat)
  /-- The simultaneous iteration was chosen for the reduced degree. -/
  | iteration (degree : Nat)
  | tripleRoot
  | doubleRoot
  /-- A quartic has even powers only. -/
  | biquadratic
  /-- A quartic has even powers only once it is depressed. -/
  | depressedBiquadratic
  /-- The estimates after one step. -/
  | estimates (points : List K)
  /-- The estimates stopped moving. -/
  | settled (steps : Nat)
  /-- The cap was reached while the estimates still moved. -/
  | unsettled (cap : Nat)
  deriving Repr

namespace Event

/-- The level of an event. -/
def level {K : Type} : Event K → Level
  | .estimates _ => .trace
  | .unsettled _ => .warn
  | _ => .debug

/-- The wording of an event. -/
def message {R : Type} [BinaryFloat R] : Event (Complex R) → String
  | .droppedLead coefficient => "dropping leading coefficient " ++ coefficient.display
  | .factoredZero => "factoring out a root at zero"
  | .closedForm degree => "degree " ++ toString degree ++ ": closed form"
  | .iteration degree => "degree " ++ toString degree ++ ": Durand-Kerner"
  | .tripleRoot => "cubic: triple root"
  | .doubleRoot => "cubic: double root"
  | .biquadratic => "quartic: biquadratic"
  | .depressedBiquadratic => "quartic: depressed quartic is biquadratic"
  | .estimates points => "[" ++ ", ".intercalate (points.map Complex.record) ++ "]"
  | .settled steps => "converged after " ++ toString steps ++ " iterations"
  | .unsettled cap =>
      "did not converge within " ++ toString cap ++ " iterations, returning last estimate"

end Event

/-- A step of a root search: it reports events and may break a promise. -/
abbrev Reported (K : Type) := Traced Fault (Event K)

end RootFinding
