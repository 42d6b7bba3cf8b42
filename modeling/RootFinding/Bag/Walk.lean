import RootFinding.Bag.Basic

/-!
# Walking a bag

Two walks yield the elements of a bag, each value as often as it occurs. `Cursor` looks at a
bag: it counts the current entry down to zero and moves on when it finds it used up. `Drain`
takes a bag apart: it holds the current entry only while some of it is left. `Walk.toList`
exhausts either, and `Walk.foldM` combines the elements without listing them.

Both yield the entries in the order of the table. Where that order shows in a result, it is an
argument, a `TableOrder`.
-/

namespace RootFinding

/-- A state that yields values one by one and knows how many are left. -/
class Walk (σ : Type) (α : outParam Type) where
  /-- The next value, if there is one, and the state after it. -/
  next : σ → Option α × σ
  /-- How many values are still to come. -/
  remaining : σ → Nat

namespace Walk

variable {σ α : Type} [Walk σ α]

/-- The next values, at most `n` of them. -/
def take : Nat → σ → List α
  | 0, _ => []
  | n + 1, state =>
      match next state with
      | (some value, state) => value :: take n state
      | (none, _) => []

/-- Every value still to come. -/
def toList (state : σ) : List α := take (remaining state) state

/-- Combine the next values, at most `n` of them, in turn. -/
@[specialize] def foldUpTo {m : Type → Type} [Monad m] {β : Type} (step : β → α → m β) :
    Nat → β → σ → m β
  | 0, result, _ => pure result
  | n + 1, result, state =>
      match next state with
      | (some value, state) => do foldUpTo step n (← step result value) state
      | (none, _) => pure result

/-- Combine every value still to come with a start value. A step that fails ends the walk, however
many values are left. -/
@[inline] def foldM {m : Type → Type} [Monad m] {β : Type} (step : β → α → m β) (start : β)
    (state : σ) : m β :=
  foldUpTo step (remaining state) start state

/-- Combining the next values in turn is folding their list. -/
theorem foldUpTo_eq {m : Type → Type} [Monad m] {β : Type} (step : β → α → m β) (n : Nat)
    (result : β) (state : σ) :
    foldUpTo step n result state = (take n state).foldlM step result := by
  induction n generalizing result state with
  | zero => rfl
  | succ n inductionHypothesis =>
      rcases here : next state with ⟨_ | value, after⟩
      · simp only [foldUpTo, take, here, List.foldlM_nil]
      · simp only [foldUpTo, take, here, List.foldlM_cons, inductionHypothesis]

/-- Combining the values of a walk in turn is folding their list. -/
theorem foldM_eq {m : Type → Type} [Monad m] {β : Type} (step : β → α → m β) (start : β)
    (state : σ) : foldM step start state = (toList state).foldlM step start :=
  foldUpTo_eq step (remaining state) start state

end Walk

namespace Bag

variable {α : Type}

/-- The number of occurrences in a list of entries and in a current entry, if there is one. -/
def occurrences (current : Option (α × Nat)) (rest : List (α × Nat)) : Nat :=
  ((current.map Prod.snd).getD 0) + weight rest

/-- A walk that leaves the bag alone. A used-up current entry stays until the next step. -/
structure Cursor (α : Type) where
  current : Option (α × Nat)
  rest : List (α × Nat)

namespace Cursor

/-- Yield from the first entry that has an occurrence, and make it the current one. -/
def advance (current : Option (α × Nat)) : List (α × Nat) → Option α × Cursor α
  | [] => (none, ⟨current, []⟩)
  | (value, 0) :: rest => advance (some (value, 0)) rest
  | (value, n + 1) :: rest => (some value, ⟨some (value, n), rest⟩)

/-- Yield from the current entry while it lasts. -/
def next (cursor : Cursor α) : Option α × Cursor α :=
  match cursor.current with
  | some (value, n + 1) => (some value, { cursor with current := some (value, n) })
  | current => advance current cursor.rest

instance : Walk (Cursor α) α where
  next := next
  remaining cursor := occurrences cursor.current cursor.rest

end Cursor

/-- A walk that uses the bag up. The current entry is let go with its last occurrence. -/
structure Drain (α : Type) where
  current : Option (α × Nat)
  rest : List (α × Nat)

namespace Drain

/-- Yield from the first entry that has an occurrence, and keep what is left of it. -/
def advance : List (α × Nat) → Option α × Drain α
  | [] => (none, ⟨none, []⟩)
  | (_, 0) :: rest => advance rest
  | (value, 1) :: rest => (some value, ⟨none, rest⟩)
  | (value, n + 2) :: rest => (some value, ⟨some (value, n + 1), rest⟩)

/-- Take the current entry; yield from it and put back what is left, or move on. -/
def next (drain : Drain α) : Option α × Drain α :=
  match drain.current with
  | some (value, 1) => (some value, ⟨none, drain.rest⟩)
  | some (value, n + 2) => (some value, ⟨some (value, n + 1), drain.rest⟩)
  | _ => advance drain.rest

instance : Walk (Drain α) α where
  next := next
  remaining drain := occurrences drain.current drain.rest

end Drain

/-- A walk over the elements that starts before the first entry. -/
def cursor (bag : Bag α) : Cursor α := ⟨none, bag.entries⟩

/-- A walk that starts before the first entry and uses the bag up. -/
def drain (bag : Bag α) : Drain α := ⟨none, bag.entries⟩

/-- Every element, as often as it occurs. -/
def toList (bag : Bag α) : List α := Walk.toList bag.cursor

/-- Every element, as often as it occurs, from the walk that uses the bag up. -/
def intoList (bag : Bag α) : List α := Walk.toList bag.drain

/-- Combine the elements with a start value, one occurrence at a time. -/
@[inline] def fold {β : Type} (f : β → α → β) (start : β) (bag : Bag α) : β :=
  Id.run (Walk.foldM (fun result value => pure (f result value)) start bag.cursor)

/-- Combining the elements one occurrence at a time is folding their list. -/
theorem fold_eq {β : Type} (f : β → α → β) (start : β) (bag : Bag α) :
    bag.fold f start = bag.toList.foldl f start := by
  rw [fold, Walk.foldM_eq, List.foldlM_pure]
  rfl

/-- An order in which the tables of bags are walked. The bag does not determine it: it may be any
rearrangement of the entries. -/
structure TableOrder (α : Type) where
  rearrange : List (α × Nat) → List (α × Nat)
  perm : ∀ entries, (rearrange entries).Perm entries

/-- The order in which the entries stand. -/
def TableOrder.asStored : TableOrder α := ⟨id, fun _ => List.Perm.refl _⟩

/-- The bag with its table in an order. -/
def arranged (bag : Bag α) (order : TableOrder α) : Bag α := ⟨order.rearrange bag.entries⟩

/-- Text of a bag from the text of an element. -/
def text (element : α → String) (bag : Bag α) : String :=
  "\x7b" ++ ", ".intercalate (bag.toList.map element) ++ "\x7d"

end Bag

end RootFinding
