import RootFinding.Search.Traced

/-!
# Outcomes of sequenced computations

A sequence of computations succeeds exactly if each one does, and fails with the cause of the
first that does not. The facts are stated once for outcomes; `Traced.outcome_bind` carries them
to traced computations.
-/

namespace RootFinding.Outcome

variable {ε δ α β : Type}

/-- To give a value is to succeed with it. -/
@[simp] theorem pure_eq_ok (value : α) : (pure value : Except ε α) = .ok value := rfl

/-- A sequence goes on with the value of its first part. -/
@[simp] theorem ok_bind (value : α) (rest : α → Except ε β) :
    (Except.ok value >>= rest) = rest value := rfl

/-- A sequence fails with its first part. -/
@[simp] theorem error_bind (cause : ε) (rest : α → Except ε β) :
    (Except.error cause >>= rest) = .error cause := rfl

/-- There is no cause to restate in a success. -/
@[simp] theorem mapError_ok (restate : ε → δ) (value : α) :
    (Except.ok value).mapError restate = .ok value := rfl

/-- A cause is restated. -/
@[simp] theorem mapError_error (restate : ε → δ) (cause : ε) :
    (Except.error cause : Except ε α).mapError restate = .error (restate cause) := rfl

/-- A sequence succeeds through a success of its first part. -/
theorem bind_eq_ok {first : Except ε α} {rest : α → Except ε β} {result : β} :
    (first >>= rest) = .ok result ↔ ∃ value, first = .ok value ∧ rest value = .ok result := by
  cases first with
  | error cause => simp
  | ok value => simp

/-- A sequence fails in its first part, or in the rest after a success of the first. -/
theorem bind_eq_error {first : Except ε α} {rest : α → Except ε β} {cause : ε} :
    (first >>= rest) = .error cause ↔
      first = .error cause ∨ ∃ value, first = .ok value ∧ rest value = .error cause := by
  cases first with
  | error cause => simp
  | ok value => simp

/-- Restating causes keeps successes. -/
theorem mapError_eq_ok {restate : ε → δ} {first : Except ε α} {result : α} :
    first.mapError restate = .ok result ↔ first = .ok result := by
  cases first with
  | error cause => simp
  | ok value => simp

end RootFinding.Outcome

namespace RootFinding.Traced

variable {ε E α β : Type}

/-- A computation without reports reports nothing. -/
@[simp] theorem events_lift (outcome : Except ε α) :
    (liftM outcome : Traced ε E α).events = [] := rfl

/-- The events of a computation that fails are all that there are. -/
theorem events_bind_of_error {first : Traced ε E α} {cause : ε}
    (failed : first.outcome = .error cause) (rest : α → Traced ε E β) :
    (first >>= rest).events = first.events := by
  change (andThen first rest).events = _
  unfold andThen
  rw [failed]

/-- What follows a computation only matters for the result that it has. -/
theorem bind_congr {first : Traced ε E α} {rest other : α → Traced ε E β}
    (same : ∀ value, first.outcome = .ok value → rest value = other value) :
    (first >>= rest) = (first >>= other) := by
  change andThen first rest = andThen first other
  unfold andThen
  cases outcome : first.outcome with
  | error cause => rfl
  | ok value => simp only [same value outcome]

end RootFinding.Traced
