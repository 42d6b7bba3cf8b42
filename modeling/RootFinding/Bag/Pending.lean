import RootFinding.Bag.Walk

/-!
# What a walk still holds

Each walk over a bag has a list of pending values: the occurrences of its current entry and of the
entries after it. Both walks yield the head of that list and keep its tail, so that `toList` and
`intoList` are the occurrences of the entries, in order.
-/

namespace RootFinding

namespace Walk

variable {σ α : Type} [Walk σ α]

/-- A walk that yields the values of a list in turn, and counts them, takes that many of them. -/
theorem take_eq (pending : σ → List α)
    (head : ∀ state, (next state).1 = (pending state).head?)
    (tail : ∀ state, pending (next state).2 = (pending state).tail) (n : Nat) (state : σ) :
    take n state = (pending state).take n := by
  induction n generalizing state with
  | zero => simp [take]
  | succ n inductionHypothesis =>
      have headHere := head state
      have tailHere := tail state
      rcases step : next state with ⟨value?, after⟩
      rw [step] at headHere tailHere
      cases values : pending state with
      | nil =>
          rw [values] at headHere
          simp_all [take]
      | cons value values' =>
          rw [values] at headHere tailHere
          simp only [List.head?_cons] at headHere
          subst headHere
          simp [take, step, inductionHypothesis, tailHere]

/-- A walk that yields the values of a list in turn, and knows how many there are, yields the
list. -/
theorem toList_eq (pending : σ → List α)
    (head : ∀ state, (next state).1 = (pending state).head?)
    (tail : ∀ state, pending (next state).2 = (pending state).tail)
    (length : ∀ state, remaining state = (pending state).length) (state : σ) :
    toList state = pending state := by
  rw [toList, take_eq pending head tail, length, List.take_length]

end Walk

namespace Bag

variable {α : Type}

/-- The occurrences of a list of entries, entry by entry. -/
def expand (entries : List (α × Nat)) : List α :=
  entries.flatMap fun entry => List.replicate entry.2 entry.1

/-- An empty table yields nothing. -/
@[simp] theorem expand_nil : expand ([] : List (α × Nat)) = [] := rfl

/-- An entry yields its value as often as it says, and then come the others. -/
@[simp] theorem expand_cons (entry : α × Nat) (rest : List (α × Nat)) :
    expand (entry :: rest) = List.replicate entry.2 entry.1 ++ expand rest := rfl

/-- What a current entry and the entries after it still hold. -/
def pending (current : Option (α × Nat)) (rest : List (α × Nat)) : List α :=
  expand current.toList ++ expand rest

/-- There are as many occurrences as the counts add up to. -/
theorem length_expand (entries : List (α × Nat)) :
    (expand entries).length = weight entries := by
  induction entries with
  | nil => rfl
  | cons entry rest inductionHypothesis => simp [inductionHypothesis]

/-- There are as many pending values as a walk says. -/
theorem length_pending (current : Option (α × Nat)) (rest : List (α × Nat)) :
    (pending current rest).length = occurrences current rest := by
  cases current <;> simp [pending, occurrences, length_expand]

namespace Cursor

/-- Moving on yields the first occurrence of the entries ahead. -/
theorem advance_fst (current : Option (α × Nat)) (rest : List (α × Nat)) :
    (advance current rest).1 = (expand rest).head? := by
  induction rest generalizing current with
  | nil => rfl
  | cons entry rest inductionHypothesis =>
      obtain ⟨value, n⟩ := entry
      cases n with
      | zero => simpa [advance] using inductionHypothesis _
      | succ n => simp [advance, List.replicate_succ]

/-- Moving on from a used-up entry leaves the other occurrences ahead. -/
theorem pending_advance (current : Option (α × Nat)) (usedUp : expand current.toList = [])
    (rest : List (α × Nat)) :
    pending (advance current rest).2.current (advance current rest).2.rest =
      (expand rest).tail := by
  induction rest generalizing current with
  | nil => simp [advance, pending, usedUp]
  | cons entry rest inductionHypothesis =>
      obtain ⟨value, n⟩ := entry
      cases n with
      | zero =>
        have := inductionHypothesis (some (value, 0)) (by simp)
        simpa [advance] using this
      | succ n => simp [advance, pending, List.replicate_succ]

/-- The next value of a cursor is the first that is pending. -/
theorem next_fst (cursor : Cursor α) :
    cursor.next.1 = (pending cursor.current cursor.rest).head? := by
  obtain ⟨current, rest⟩ := cursor
  rcases current with _ | ⟨value, n⟩
  · simp [next, advance_fst, pending]
  · cases n with
    | zero => simp [next, advance_fst, pending]
    | succ n => simp [next, pending, List.replicate_succ]

/-- After a step of a cursor the other pending values are pending. -/
theorem pending_next (cursor : Cursor α) :
    pending cursor.next.2.current cursor.next.2.rest =
      (pending cursor.current cursor.rest).tail := by
  obtain ⟨current, rest⟩ := cursor
  rcases current with _ | ⟨value, n⟩
  · simpa [next, pending] using pending_advance none (by simp) rest
  · cases n with
    | zero => simpa [next, pending] using pending_advance (some (value, 0)) (by simp) rest
    | succ n => simp [next, pending, List.replicate_succ]

end Cursor

namespace Drain

/-- Moving on yields the first occurrence of the entries ahead. -/
theorem advance_fst (rest : List (α × Nat)) : (advance rest).1 = (expand rest).head? := by
  induction rest using advance.induct <;> simp_all [advance, List.replicate_succ]

/-- Moving on leaves the other occurrences ahead. -/
theorem pending_advance (rest : List (α × Nat)) :
    pending (advance rest).2.current (advance rest).2.rest = (expand rest).tail := by
  induction rest using advance.induct <;> simp_all [advance, pending, List.replicate_succ]

/-- The next value of a drain is the first that is pending. -/
theorem next_fst (drain : Drain α) :
    drain.next.1 = (pending drain.current drain.rest).head? := by
  obtain ⟨current, rest⟩ := drain
  rcases current with _ | ⟨value, _ | _ | n⟩ <;>
    simp [next, advance_fst, pending, List.replicate_succ]

/-- After a step of a drain the other pending values are pending. -/
theorem pending_next (drain : Drain α) :
    pending drain.next.2.current drain.next.2.rest = (pending drain.current drain.rest).tail := by
  obtain ⟨current, rest⟩ := drain
  rcases current with _ | ⟨value, _ | _ | n⟩
  · simpa [next, pending] using pending_advance rest
  · simpa [next, pending] using pending_advance rest
  · simp [next, pending]
  · simp [next, pending, List.replicate_succ]

end Drain

/-- The elements are the occurrences of the entries, in order. -/
theorem toList_eq (bag : Bag α) : bag.toList = expand bag.entries :=
  Walk.toList_eq (fun cursor : Cursor α => pending cursor.current cursor.rest) Cursor.next_fst
    Cursor.pending_next (fun _ => (length_pending _ _).symm) bag.cursor

/-- Both walks yield the same elements in the same order. -/
theorem intoList_eq (bag : Bag α) : bag.intoList = expand bag.entries :=
  Walk.toList_eq (fun drain : Drain α => pending drain.current drain.rest) Drain.next_fst
    Drain.pending_next (fun _ => (length_pending _ _).symm) bag.drain

end Bag

end RootFinding
