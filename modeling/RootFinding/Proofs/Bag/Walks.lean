import RootFinding.Proofs.Bag.Algebra
import RootFinding.Proofs.Bag.Cardinality

/-!
# What the walks yield

The two walks over a bag are different machines: one counts its current entry down and lets go of it
a step later, the other holds it only while some of it is left. Of both, a state holds a current
entry and the entries ahead, and a step goes round a loop until it can yield. What is shown of one
step of either machine is carried to every state that steps lead to, so that all the rest is said
once: what is still to come, that the end is final, and that nothing of the bag is left out or
yielded twice.
-/

namespace RootFinding

/-- How a loop ends: a pass returns a result, or it goes on in another state. The number is that of
all passes. -/
inductive ReturnsAfter {σ ρ : Type} (pass : σ → ρ ⊕ σ) : Nat → σ → ρ → Prop where
  | returns {state : σ} {result : ρ} (returned : pass state = .inl result) :
      ReturnsAfter pass 1 state result
  | goesOn {state onward : σ} {passes : Nat} {result : ρ} (continued : pass state = .inr onward)
      (later : ReturnsAfter pass passes onward result) :
      ReturnsAfter pass (passes + 1) state result

namespace Walk

variable {σ α : Type} [Walk σ α]

/-- The state that steps of a walk lead to. -/
def after (start : σ) : Nat → σ
  | 0 => start
  | steps + 1 => (next (after start steps)).2

/-- Further steps start from where the steps before them led to. -/
theorem after_add (start : σ) (steps further : Nat) :
    after start (steps + further) = after (after start steps) further := by
  induction further with
  | zero => rfl
  | succ further inductionHypothesis =>
      exact congrArg (fun state => (next state).2) inductionHypothesis

/-- A walk that yields the values of a list in turn has the others left after some steps. -/
theorem pending_after {pending : σ → List α}
    (tail : ∀ state, pending (next state).2 = (pending state).tail) (start : σ) (steps : Nat) :
    pending (after start steps) = (pending start).drop steps := by
  induction steps with
  | zero => rfl
  | succ steps inductionHypothesis => rw [after, tail, inductionHypothesis, List.tail_drop]

end Walk

namespace Bag

variable {α : Type}

/-- A walk over entries: its states have a current entry, if there is one, and entries ahead, and a
step is a loop. -/
class EntryWalk (σ : Type) (α : outParam Type) extends Walk σ α where
  current : σ → Option (α × Nat)
  rest : σ → List (α × Nat)
  /-- One pass through the loop of a step. -/
  pass : σ → (Option α × σ) ⊕ σ

open Walk EntryWalk

/-- What a step of a walk over entries does. -/
class LawfulEntryWalk (σ : Type) (α : outParam Type) [EntryWalk σ α] : Prop where
  /-- The loop of a step ends after two passes at most, if no entry ahead is empty. -/
  returns_next : ∀ state : σ, (∀ entry ∈ rest state, 0 < entry.2) →
    ∃ passes, passes ≤ 2 ∧ ReturnsAfter pass passes state (next state)
  /-- A step only takes entries from the front. -/
  rest_next : ∀ state : σ, rest (next state).2 <:+ rest state
  /-- A step yields the first value that is pending, and leaves the others. -/
  next_fst : ∀ state : σ, (next state).1 = (pending (current state) (rest state)).head?
  pending_next : ∀ state : σ, pending (current (next state).2) (rest (next state).2) =
    (pending (current state) (rest state)).tail
  remaining_eq : ∀ state : σ, remaining state = (pending (current state) (rest state)).length

namespace Cursor

/-- Make the next entry the current one, if there is a next. -/
def takeEntry (current : Option (α × Nat)) :
    List (α × Nat) → (Option α × Cursor α) ⊕ Cursor α
  | [] => .inl (none, ⟨current, []⟩)
  | entry :: rest => .inr ⟨some entry, rest⟩

/-- One pass through the loop of a cursor: yield from the current entry while it lasts, or else take
the next entry. -/
def pass (cursor : Cursor α) : (Option α × Cursor α) ⊕ Cursor α :=
  match cursor.current with
  | some (value, n + 1) => .inl (some value, { cursor with current := some (value, n) })
  | current => takeEntry current cursor.rest

instance : EntryWalk (Cursor α) α where
  current := Cursor.current
  rest := Cursor.rest
  pass := pass

/-- Looking for the next entry only leaves entries behind. -/
theorem rest_advance (current : Option (α × Nat)) (rest : List (α × Nat)) :
    (advance current rest).2.rest <:+ rest := by
  induction rest generalizing current with
  | nil => exact List.suffix_refl _
  | cons entry rest inductionHypothesis =>
      obtain ⟨value, n⟩ := entry
      cases n with
      | zero => exact (inductionHypothesis _).trans (List.suffix_cons _ _)
      | succ n => exact List.suffix_cons _ _

/-- A cursor that takes the next entry yields from it in the pass after that. -/
theorem returns_advance {cursor : Cursor α} {current : Option (α × Nat)} {rest : List (α × Nat)}
    (moves : pass cursor = takeEntry current rest) (positive : ∀ entry ∈ rest, 0 < entry.2) :
    ∃ passes, passes ≤ 2 ∧ ReturnsAfter pass passes cursor (advance current rest) := by
  cases rest with
  | nil => exact ⟨1, by omega, .returns moves⟩
  | cons entry rest =>
      obtain ⟨value, n⟩ := entry
      obtain ⟨m, rfl⟩ := Nat.exists_eq_add_of_le' (positive (value, n) List.mem_cons_self)
      exact ⟨2, le_rfl, .goesOn moves (.returns rfl)⟩

instance : LawfulEntryWalk (Cursor α) α where
  returns_next cursor positive := by
    obtain ⟨current, rest⟩ := cursor
    rcases current with _ | ⟨value, _ | n⟩
    · exact returns_advance rfl positive
    · exact returns_advance rfl positive
    · exact ⟨1, by omega, .returns rfl⟩
  rest_next cursor := by
    obtain ⟨current, rest⟩ := cursor
    rcases current with _ | ⟨value, _ | n⟩
    · exact rest_advance _ _
    · exact rest_advance _ _
    · exact List.suffix_refl _
  next_fst := next_fst
  pending_next := pending_next
  remaining_eq _ := (length_pending _ _).symm

end Cursor

namespace Drain

/-- Make the next entry the current one, if there is a next. -/
def takeEntry : List (α × Nat) → (Option α × Drain α) ⊕ Drain α
  | [] => .inl (none, ⟨none, []⟩)
  | entry :: rest => .inr ⟨some entry, rest⟩

/-- One pass through the loop of a drain: take the current entry, yield from it and put back what is
left, or else take the next entry. -/
def pass (drain : Drain α) : (Option α × Drain α) ⊕ Drain α :=
  match drain.current with
  | some (value, 1) => .inl (some value, ⟨none, drain.rest⟩)
  | some (value, n + 2) => .inl (some value, ⟨some (value, n + 1), drain.rest⟩)
  | _ => takeEntry drain.rest

instance : EntryWalk (Drain α) α where
  current := Drain.current
  rest := Drain.rest
  pass := pass

/-- Looking for the next entry only leaves entries behind. -/
theorem rest_advance (rest : List (α × Nat)) : (advance rest).2.rest <:+ rest := by
  induction rest using advance.induct with
  | case1 => exact List.suffix_refl _
  | case2 value rest inductionHypothesis =>
      exact inductionHypothesis.trans (List.suffix_cons _ _)
  | case3 value rest => exact List.suffix_cons _ _
  | case4 value n rest => exact List.suffix_cons _ _

/-- A drain that takes the next entry yields from it in the pass after that. -/
theorem returns_advance {drain : Drain α} {rest : List (α × Nat)}
    (moves : pass drain = takeEntry rest) (positive : ∀ entry ∈ rest, 0 < entry.2) :
    ∃ passes, passes ≤ 2 ∧ ReturnsAfter pass passes drain (advance rest) := by
  cases rest with
  | nil => exact ⟨1, by omega, .returns moves⟩
  | cons entry rest =>
      obtain ⟨value, n⟩ := entry
      have occurs : 0 < n := positive (value, n) List.mem_cons_self
      rcases n with _ | _ | n
      · exact absurd occurs (Nat.lt_irrefl 0)
      · exact ⟨2, le_rfl, .goesOn moves (.returns rfl)⟩
      · exact ⟨2, le_rfl, .goesOn moves (.returns rfl)⟩

instance : LawfulEntryWalk (Drain α) α where
  returns_next drain positive := by
    obtain ⟨current, rest⟩ := drain
    rcases current with _ | ⟨value, _ | _ | n⟩
    · exact returns_advance rfl positive
    · exact returns_advance rfl positive
    · exact ⟨1, by omega, .returns rfl⟩
    · exact ⟨1, by omega, .returns rfl⟩
  rest_next drain := by
    obtain ⟨current, rest⟩ := drain
    rcases current with _ | ⟨value, _ | _ | n⟩
    · exact rest_advance _
    · exact rest_advance _
    · exact List.suffix_refl _
    · exact List.suffix_refl _
  next_fst := next_fst
  pending_next := pending_next
  remaining_eq _ := (length_pending _ _).symm

end Drain

section Runs

variable {σ : Type} [EntryWalk σ α]

/-- What a state has still to yield: the current value as often as it is left, and after that every
entry ahead as often as it says. -/
def toCome (state : σ) : List α := pending (current state) (rest state)

variable [LawfulEntryWalk σ α]

/-- Each step takes one value off what is to come. -/
theorem toCome_after (start : σ) (steps : Nat) :
    toCome (after start steps) = (toCome start).drop steps :=
  pending_after LawfulEntryWalk.pending_next start steps

/-- After some steps the next one yields what comes behind the values of those. -/
theorem next_after (start : σ) (steps : Nat) :
    (next (after start steps)).1 = (toCome start)[steps]? := by
  rw [LawfulEntryWalk.next_fst, ← List.head?_drop, ← toCome_after]
  rfl

/-- The first steps yield the first values that are to come. -/
theorem take_eq_toCome (start : σ) (steps : Nat) :
    Walk.take steps start = (toCome start).take steps :=
  Walk.take_eq toCome LawfulEntryWalk.next_fst LawfulEntryWalk.pending_next steps start

/-- A whole walk yields everything that is to come. -/
theorem toList_eq_toCome (start : σ) : Walk.toList start = toCome start :=
  Walk.toList_eq toCome LawfulEntryWalk.next_fst LawfulEntryWalk.pending_next
    LawfulEntryWalk.remaining_eq start

/-- The entries ahead are the last of those that were ahead at the start. -/
theorem rest_after (start : σ) (steps : Nat) : rest (after start steps) <:+ rest start := by
  induction steps with
  | zero => exact List.suffix_refl _
  | succ steps inductionHypothesis =>
      exact (LawfulEntryWalk.rest_next _).trans inductionHypothesis

/-- Of the entries that are no longer ahead, everything was yielded but what is left of the current
one. -/
theorem exists_visited {start : σ} (fresh : current start = none) (steps : Nat) :
    ∃ visited, rest start = visited ++ rest (after start steps) ∧
      expand visited = Walk.take steps start ++ expand (current (after start steps)).toList := by
  obtain ⟨visited, parts⟩ := rest_after start steps
  refine ⟨visited, parts.symm, ?_⟩
  have whole : toCome start = expand visited ++ expand (rest (after start steps)) := by
    rw [toCome, fresh, ← parts, ← expand_append]
    rfl
  have split : expand visited ++ expand (rest (after start steps)) =
      Walk.take steps start ++ expand (current (after start steps)).toList ++
        expand (rest (after start steps)) := by
    calc expand visited ++ expand (rest (after start steps))
        = (toCome start).take steps ++ (toCome start).drop steps := by
          rw [List.take_append_drop, whole]
      _ = Walk.take steps start ++ toCome (after start steps) := by
          rw [take_eq_toCome, toCome_after]
      _ = Walk.take steps start ++ expand (current (after start steps)).toList ++
            expand (rest (after start steps)) := (List.append_assoc _ _ _).symm
  exact List.append_cancel_right split

end Runs

/-- A walk over a bag yields its elements: what holds of every state that steps lead to, and of the
walk as a whole. -/
structure YieldsElements {σ : Type} [EntryWalk σ α] [BEq α] (start : σ) (bag : Bag α) : Prop where
  /-- The loop of each next step ends. -/
  ends : ∀ steps, ∃ passes, passes ≤ 2 ∧
    ReturnsAfter pass passes (after start steps) (next (after start steps))
  /-- The entries of the bag are those that were visited, of which only what is left of the current
  one was not yielded, and those ahead. -/
  visited : ∀ steps, ∃ visited, bag.entries = visited ++ rest (after start steps) ∧
    expand visited = Walk.take steps start ++ expand (current (after start steps)).toList
  /-- The steps from a state on yield what is left of the current entry, then the entries ahead, and
  then nothing. -/
  toCome : ∀ steps further, (next (after start (steps + further))).1 =
    (expand (current (after start steps)).toList ++ expand (rest (after start steps)))[further]?
  final : ∀ steps, (next (after start steps)).1 = none →
    ∀ further, (next (after start (steps + further))).1 = none
  /-- All that is yielded are the elements of the bag. -/
  count : ∀ value, (Walk.toList start).count value = bag.count value
  size : bag.size = counter (Walk.toList start).length
  collected : Agree (ofList (Walk.toList start)) (.ok bag)

/-- A lawful walk that starts before the first entry yields the elements. -/
theorem yieldsElements {σ : Type} [EntryWalk σ α] [LawfulEntryWalk σ α] [BEq α] [EquivBEq α]
    {start : σ} {bag : Bag α} (fresh : current start = none) (whole : rest start = bag.entries)
    (wellFormed : WellFormed bag.entries) : YieldsElements start bag := by
  have elements : Walk.toList start = expand bag.entries := by
    rw [toList_eq_toCome, Bag.toCome, fresh, whole]
    rfl
  exact
    { ends := fun steps => LawfulEntryWalk.returns_next _ fun entry ahead =>
        wellFormed.positive entry (whole ▸ (rest_after start steps).subset ahead)
      visited := fun steps => whole ▸ exists_visited fresh steps
      toCome := fun steps further => by
        rw [after_add, next_after]
        rfl
      final := fun steps ended further => by
        rw [next_after, List.getElem?_eq_none_iff] at ended ⊢
        exact ended.trans (Nat.le_add_right steps further)
      count := fun value => by
        rw [elements]
        exact (countIn_eq_count value wellFormed.apart).symm
      size := by rw [elements, length_expand, size_eq_counter, total]
      collected := by
        rw [elements, ofList_expand, ofEntries_of_wellFormed wellFormed]
        exact (gives_ok wellFormed).agree (gives_ok wellFormed) fun _ => rfl }

/-- Both walks over a bag that a run arrives at yield its elements, and folding the bag visits
them. -/
theorem walks_yield_elements [BEq α] [EquivBEq α] {bag : Bag α} (reached : Reachable bag) :
    YieldsElements bag.cursor bag ∧ YieldsElements bag.drain bag ∧
      ∀ {β : Type} (f : β → α → β) (start : β),
        bag.fold f start = (Walk.toList bag.cursor).foldl f start ∧
          bag.fold f start = (Walk.toList bag.drain).foldl f start := by
  refine ⟨yieldsElements rfl rfl reached.wellFormed, yieldsElements rfl rfl reached.wellFormed,
    fun f start => ⟨fold_eq f start bag, ?_⟩⟩
  rw [fold_eq, toList_eq, ← intoList_eq]
  rfl

/-- After two steps over the numbers `1, 1, 2` the `2` is to come, and then nothing. -/
theorem walks_yield_elements_twice :
    Bag.ofList [1, 1, 2] = Except.ok (⟨[(1, 2), (2, 1)]⟩ : Bag Int) ∧
      ∀ further, (next (after (⟨[(1, 2), (2, 1)]⟩ : Bag Int).drain (2 + further))).1 =
        [2][further]? := by
  have built : Bag.ofList [1, 1, 2] = Except.ok (⟨[(1, 2), (2, 1)]⟩ : Bag Int) := rfl
  exact ⟨built, (walks_yield_elements (.ofList built)).2.1.toCome 2⟩

end Bag

end RootFinding
