/-!
# Traced computations

A traced computation has an outcome and the events it reported on the way, oldest first. One
that fails keeps the events before the failure. `Traced.outcome_bind` says that the outcome
does not depend on the events, so a statement about results alone never has to mention them.
-/

namespace RootFinding

/-- An outcome with the events before it. -/
structure Traced (ε E α : Type) where
  events : List E
  outcome : Except ε α

namespace Traced

variable {ε δ E α β : Type}

/-- Report events. -/
def report (events : List E) : Traced ε E Unit := ⟨events, .ok ()⟩

/-- Fail. -/
def fail (cause : ε) : Traced ε E α := ⟨[], .error cause⟩

/-- Go on after success with the events of both parts; stop at a failure. -/
def andThen (first : Traced ε E α) (rest : α → Traced ε E β) : Traced ε E β :=
  match first.outcome with
  | .ok value =>
      let next := rest value
      ⟨first.events ++ next.events, next.outcome⟩
  | .error cause => ⟨first.events, .error cause⟩

instance : Monad (Traced ε E) where
  pure value := ⟨[], .ok value⟩
  bind := andThen

instance : MonadLift (Except ε) (Traced ε E) := ⟨fun outcome => ⟨[], outcome⟩⟩

/-- Restate the cause of a failure. -/
def mapError (restate : ε → δ) (computation : Traced ε E α) : Traced δ E α :=
  ⟨computation.events, computation.outcome.mapError restate⟩

/-- A value is its own outcome. -/
@[simp] theorem outcome_pure (value : α) :
    (pure value : Traced ε E α).outcome = .ok value := rfl

/-- A value reports nothing. -/
@[simp] theorem events_pure (value : α) : (pure value : Traced ε E α).events = [] := rfl

/-- Reporting always succeeds. -/
@[simp] theorem outcome_report (events : List E) :
    (report events : Traced ε E Unit).outcome = .ok () := rfl

/-- A failure has its cause as its outcome. -/
@[simp] theorem outcome_fail (cause : ε) :
    (fail cause : Traced ε E α).outcome = .error cause := rfl

/-- The outcome of a computation without reports is its result. -/
@[simp] theorem outcome_lift (outcome : Except ε α) :
    (liftM outcome : Traced ε E α).outcome = outcome := rfl

/-- The outcome of a sequence is the sequence of the outcomes. -/
@[simp] theorem outcome_bind (first : Traced ε E α) (rest : α → Traced ε E β) :
    (first >>= rest).outcome = first.outcome >>= fun value => (rest value).outcome := by
  change (andThen first rest).outcome = _
  unfold andThen
  cases first.outcome <;> rfl

/-- The events of a computation that succeeds are followed by those of its continuation. -/
theorem events_bind_of_ok {first : Traced ε E α} {value : α}
    (succeeded : first.outcome = .ok value) (rest : α → Traced ε E β) :
    (first >>= rest).events = first.events ++ (rest value).events := by
  change (andThen first rest).events = _
  unfold andThen
  rw [succeeded]

/-- Restating the cause of a failure restates it in the outcome. -/
@[simp] theorem outcome_mapError (restate : ε → δ) (computation : Traced ε E α) :
    (computation.mapError restate).outcome = computation.outcome.mapError restate := rfl

end Traced

end RootFinding
