import RootFinding.Proofs.Bag.Insertion

/-!
# Counts of a bag

An insertion raises the count of its value, and of no value that an element could not be equal to
together with it. The only value that it may store is its own.
-/

namespace RootFinding.Bag

variable {α : Type} [BEq α]

/-- The count that the first matching entry of a list holds. -/
def countIn (value : α) (entries : List (α × Nat)) : Nat :=
  ((entries.find? fun entry => entry.1 == value).map Prod.snd).getD 0

/-- The count of a bag is that of its table. -/
theorem count_eq_countIn (bag : Bag α) (value : α) : bag.count value = countIn value bag.entries :=
  rfl

/-- Nothing is counted in an empty table. -/
@[simp] theorem countIn_nil (value : α) : countIn value [] = 0 := rfl

/-- A value is counted as the first entry that it is equal to says. -/
theorem countIn_cons_of_beq {value stored : α} (same : (stored == value) = true) (n : Nat)
    (rest : List (α × Nat)) : countIn value ((stored, n) :: rest) = n := by
  simp [countIn, same]

/-- An entry for another value is passed over. -/
theorem countIn_cons_of_not_beq {value stored : α} (other : (stored == value) = false) (n : Nat)
    (rest : List (α × Nat)) : countIn value ((stored, n) :: rest) = countIn value rest := by
  simp [countIn, other]

/-- Raising a count raises it for a value that is equal to itself. -/
theorem Raised.countIn_self {value : α} (reflexive : (value == value) = true) {n : Nat}
    {entries result : List (α × Nat)} (raised : Raised value n entries result) :
    countIn value result = countIn value entries + n := by
  induction raised with
  | new fits => rw [countIn_cons_of_beq reflexive, countIn_nil]
  | here same fits => rw [countIn_cons_of_beq same, countIn_cons_of_beq same]
  | later other _ inductionHypothesis =>
      rw [countIn_cons_of_not_beq other, countIn_cons_of_not_beq other, inductionHypothesis]

/-- Raising the count of a value leaves that of another alone. Equality need not be transitive
here, so the other value is one that nothing is equal to together with the first. -/
theorem Raised.countIn_other {value other : α} {n : Nat}
    (apart : ∀ stored : α, (stored == other) = true → (stored == value) = false)
    (unequal : (value == other) = false) {entries result : List (α × Nat)}
    (raised : Raised value n entries result) :
    countIn other result = countIn other entries := by
  induction raised with
  | new fits => rw [countIn_cons_of_not_beq unequal]
  | @here stored m rest same fits =>
      have distinct : (stored == other) = false := by
        by_contra matched
        have different := apart stored (by simpa using matched)
        rw [same] at different
        cases different
      rw [countIn_cons_of_not_beq distinct, countIn_cons_of_not_beq distinct]
  | @later stored m rest after _ _ inductionHypothesis =>
      cases matched : stored == other with
      | true => rw [countIn_cons_of_beq matched, countIn_cons_of_beq matched]
      | false =>
          rw [countIn_cons_of_not_beq matched, countIn_cons_of_not_beq matched,
            inductionHypothesis]

/-- Inserted occurrences raise the count of a value that is equal to itself. -/
theorem count_insertMany_self {bag result : Bag α} {value : α} {n : Nat}
    (reflexive : (value == value) = true) (inserted : bag.insertMany value n = .ok result) :
    result.count value = bag.count value + n := by
  rcases raised_of_insertMany inserted with ⟨rfl, rfl⟩ | ⟨_, raised⟩
  · rfl
  · exact raised.countIn_self reflexive

/-- Inserted occurrences leave the count of another value alone. -/
theorem count_insertMany_other {bag result : Bag α} {value other : α} {n : Nat}
    (apart : ∀ stored : α, (stored == other) = true → (stored == value) = false)
    (unequal : (value == other) = false) (inserted : bag.insertMany value n = .ok result) :
    result.count other = bag.count other := by
  rcases raised_of_insertMany inserted with ⟨_, rfl⟩ | ⟨_, raised⟩
  · rfl
  · exact raised.countIn_other apart unequal

/-- Raising a count stores the value and no other. -/
theorem Raised.eq_or_mem {value : α} {n : Nat} {entries result : List (α × Nat)}
    (raised : Raised value n entries result) {stored : α}
    (member : stored ∈ result.map Prod.fst) : stored = value ∨ stored ∈ entries.map Prod.fst := by
  induction raised with
  | new fits => exact Or.inl (List.mem_singleton.mp member)
  | here same fits => exact Or.inr member
  | later other _ inductionHypothesis =>
      rw [List.map_cons, List.mem_cons] at member ⊢
      rcases member with first | there
      · exact Or.inr (Or.inl first)
      · exact (inductionHypothesis there).imp_right Or.inr

end RootFinding.Bag
