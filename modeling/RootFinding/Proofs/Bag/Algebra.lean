import RootFinding.Proofs.Bag.Reachable

/-!
# The laws of bag algebra

Sum, minimum, truncated and absolute difference of the counts: that is what the operations on two
bags give, whichever operand is walked and in whatever order, where every sum that is formed fits a
counter. The laws of multisets follow from the arithmetic of counts. They are stated of the
computations: both sides of a law give a bag, and the bags are equal.
-/

namespace RootFinding.Bag

variable {α : Type} [BEq α]

/-- Two computations give equal bags. -/
def Agree (first second : Except Fault (Bag α)) : Prop :=
  ∃ a b, first = .ok a ∧ second = .ok b ∧ (a == b) = true

variable [EquivBEq α]

/-- Computations that give the same counts give equal bags. -/
theorem Gives.agree {first second : Except Fault (Bag α)} {counts others : α → Nat}
    (given : Gives first counts) (givenToo : Gives second others)
    (same : ∀ value, counts value = others value) : Agree first second := by
  obtain ⟨a, rfl, wellFormedA, countedA⟩ := given
  obtain ⟨b, rfl, wellFormedB, countedB⟩ := givenToo
  refine ⟨a, b, rfl, rfl, ?_⟩
  rw [beq_iff_count wellFormedA wellFormedB (selfEqual _) (selfEqual _)]
  intro value
  rw [countedA, countedB, same]

section Composition

variable {first second : Except Fault (Bag α)} {counts others : α → Nat}
variable (given : Gives first counts) (givenToo : Gives second others)
include given givenToo

omit [EquivBEq α] in
/-- A computation that goes on with two bags only looks at their counts. -/
theorem Gives.bind₂ {operation : Bag α → Bag α → Except Fault (Bag α)} {final : α → Nat}
    (goesOn : ∀ a b : Bag α, WellFormed a.entries → WellFormed b.entries →
      a.count = counts → b.count = others → Gives (operation a b) final) :
    Gives (do operation (← first) (← second)) final :=
  given.bind fun a wellFormedA countedA => givenToo.bind fun b wellFormedB countedB =>
    goesOn a b wellFormedA wellFormedB (funext countedA) (funext countedB)

/-- The counts of a union add up. -/
theorem Gives.union (fits : ∀ value, counts value + others value ≤ countLimit) :
    Gives (do (← first).union (← second)) fun value => counts value + others value := by
  refine given.bind₂ givenToo ?_
  rintro a b wellFormedA wellFormedB rfl rfl
  exact gives_union wellFormedA wellFormedB fits

/-- The counts of an intersection are the smaller ones. -/
theorem Gives.intersection :
    Gives (do (← first).intersection (← second))
      fun value => min (counts value) (others value) := by
  refine given.bind₂ givenToo ?_
  rintro a b wellFormedA wellFormedB rfl rfl
  exact gives_intersection wellFormedA wellFormedB

/-- The counts of a complement are what is left of the first ones. -/
theorem Gives.complement :
    Gives (do (← first).complement (← second)) fun value => counts value - others value := by
  refine given.bind₂ givenToo ?_
  rintro a b wellFormedA _ rfl rfl
  exact gives_complement wellFormedA b

end Composition

/-- What the operations on two bags do to the counts, and the laws that they obey. A law with a
union asks that what the union adds up fits a counter. -/
structure AlgebraLaws (a b c : Bag α) : Prop where
  count_union : (∀ value, a.count value + b.count value ≤ countLimit) →
    Gives (a.union b) fun value => a.count value + b.count value
  count_intersection : Gives (a.intersection b) fun value => min (a.count value) (b.count value)
  count_complement : Gives (a.complement b) fun value => a.count value - b.count value
  count_difference :
    Gives (a.difference b) fun value => ((a.count value : Int) - b.count value).natAbs
  union_comm : (∀ value, a.count value + b.count value ≤ countLimit) →
    Agree (a.union b) (b.union a)
  union_assoc : (∀ value, a.count value + b.count value + c.count value ≤ countLimit) →
    Agree (do (← a.union b).union c) (do a.union (← b.union c))
  intersection_comm : Agree (a.intersection b) (b.intersection a)
  intersection_assoc :
    Agree (do (← a.intersection b).intersection c) (do a.intersection (← b.intersection c))
  difference_comm : Agree (a.difference b) (b.difference a)
  /-- A difference is the union without two copies of the intersection. -/
  difference_eq : (∀ value, a.count value + b.count value ≤ countLimit) →
    Agree (a.difference b) do
      let both ← a.intersection b
      (← (← a.union b).complement both).complement both
  /-- What the second bag adds to the first is what it has beyond the intersection. -/
  union_complement : (∀ value, a.count value + b.count value ≤ countLimit) →
    Agree (do a.union (← b.complement a)) (do (← a.union b).complement (← a.intersection b))
  union_intersection : (∀ value, a.count value + b.count value ≤ countLimit) →
    (∀ value, a.count value + c.count value ≤ countLimit) →
    Agree (do a.union (← b.intersection c)) (do (← a.union b).intersection (← a.union c))
  /-- A bag is what it has in common with another and what it has beyond that. -/
  eq_parts : Agree (.ok a) (do (← a.intersection b).union (← a.complement b))

section Laws

variable {a b c : Bag α} (wellFormedA : WellFormed a.entries) (wellFormedB : WellFormed b.entries)
variable (wellFormedC : WellFormed c.entries)
include wellFormedA wellFormedB

/-- The order of a union's operands does not matter. -/
theorem union_comm (fits : ∀ value, a.count value + b.count value ≤ countLimit) :
    Agree (a.union b) (b.union a) := by
  have swapped := gives_union wellFormedB wellFormedA fun value => by
    rw [Nat.add_comm]
    exact fits value
  exact (gives_union wellFormedA wellFormedB fits).agree swapped fun value => Nat.add_comm _ _

/-- The order of an intersection's operands does not matter. -/
theorem intersection_comm : Agree (a.intersection b) (b.intersection a) :=
  (gives_intersection wellFormedA wellFormedB).agree (gives_intersection wellFormedB wellFormedA)
    fun _ => Nat.min_comm _ _

/-- The order of a difference's operands does not matter. -/
theorem difference_comm : Agree (a.difference b) (b.difference a) :=
  (gives_difference wellFormedA wellFormedB).agree (gives_difference wellFormedB wellFormedA)
    fun _ => Nat.add_comm _ _

/-- Of the union, what is in common is taken twice: it is in both bags. -/
theorem difference_eq_union (fits : ∀ value, a.count value + b.count value ≤ countLimit) :
    Agree (a.difference b) (do
      let both ← a.intersection b
      (← (← a.union b).complement both).complement both) := by
  refine (gives_difference wellFormedA wellFormedB).agree ?_ fun value => rfl
  refine (gives_intersection wellFormedA wellFormedB).bind fun common _ counted => ?_
  refine (gives_union wellFormedA wellFormedB fits).bind fun sum wellFormed summed => ?_
  refine (gives_complement wellFormed common).bind fun once wellFormedOnce left => ?_
  exact (gives_complement wellFormedOnce common).congr fun value => by
    rw [left, summed, counted]
    omega

/-- What another bag has more completes a union, which is the sum without the intersection. -/
theorem union_complement_eq (fits : ∀ value, a.count value + b.count value ≤ countLimit) :
    Agree (do a.union (← b.complement a)) (do (← a.union b).complement (← a.intersection b)) := by
  have left := (gives_ok wellFormedA).union (gives_complement wellFormedB a) fun value => by
    have limitA := count_le_countLimit wellFormedA value
    have limitB := count_le_countLimit wellFormedB value
    omega
  have right := (gives_union wellFormedA wellFormedB fits).complement
    (gives_intersection wellFormedA wellFormedB)
  exact left.agree right fun value => by omega

/-- The parts of a count add up to it, so that they fit a counter. -/
theorem eq_union_of_parts : Agree (.ok a) (do (← a.intersection b).union (← a.complement b)) := by
  have parts := (gives_intersection wellFormedA wellFormedB).union (gives_complement wellFormedA b)
    fun value => by
      have limit := count_le_countLimit wellFormedA value
      omega
  exact (gives_ok wellFormedA).agree parts fun value => by omega

include wellFormedC

/-- Unions may be regrouped. -/
theorem union_assoc
    (fits : ∀ value, a.count value + b.count value + c.count value ≤ countLimit) :
    Agree (do (← a.union b).union c) (do a.union (← b.union c)) := by
  have fitsAB (value : α) : a.count value + b.count value ≤ countLimit :=
    (Nat.le_add_right _ _).trans (fits value)
  have fitsBC (value : α) : b.count value + c.count value ≤ countLimit := by
    have fitsAll := fits value
    omega
  have left := (gives_union wellFormedA wellFormedB fitsAB).union (gives_ok wellFormedC) fits
  have right := (gives_ok wellFormedA).union (gives_union wellFormedB wellFormedC fitsBC)
    fun value => by
      rw [← Nat.add_assoc]
      exact fits value
  exact left.agree right fun value => Nat.add_assoc _ _ _

/-- Intersections may be regrouped. -/
theorem intersection_assoc :
    Agree (do (← a.intersection b).intersection c) (do a.intersection (← b.intersection c)) := by
  have left := (gives_intersection wellFormedA wellFormedB).intersection (gives_ok wellFormedC)
  have right := (gives_ok wellFormedA).intersection (gives_intersection wellFormedB wellFormedC)
  exact left.agree right fun value => Nat.min_assoc _ _ _

/-- A union distributes over an intersection. -/
theorem union_intersection_distrib
    (fitsAB : ∀ value, a.count value + b.count value ≤ countLimit)
    (fitsAC : ∀ value, a.count value + c.count value ≤ countLimit) :
    Agree (do a.union (← b.intersection c)) (do (← a.union b).intersection (← a.union c)) := by
  have left := (gives_ok wellFormedA).union (gives_intersection wellFormedB wellFormedC)
    fun value => by
      have fits := fitsAB value
      omega
  have right := (gives_union wellFormedA wellFormedB fitsAB).intersection
    (gives_union wellFormedA wellFormedC fitsAC)
  exact left.agree right fun value => (Nat.add_min_add_left _ _ _).symm

end Laws

/-- The operations on bags that runs arrive at are those on their counts, so that the laws of
multisets hold of them. -/
theorem reachable_algebra {a b c : Bag α} (reachedA : Reachable a) (reachedB : Reachable b)
    (reachedC : Reachable c) : AlgebraLaws a b c := by
  have wellFormedA := reachedA.wellFormed
  have wellFormedB := reachedB.wellFormed
  have wellFormedC := reachedC.wellFormed
  have absolute (value : α) :
      a.count value - b.count value + (b.count value - a.count value) =
        ((a.count value : Int) - b.count value).natAbs := by omega
  exact
    { count_union := gives_union wellFormedA wellFormedB
      count_intersection := gives_intersection wellFormedA wellFormedB
      count_complement := gives_complement wellFormedA b
      count_difference := (gives_difference wellFormedA wellFormedB).congr absolute
      union_comm := union_comm wellFormedA wellFormedB
      union_assoc := union_assoc wellFormedA wellFormedB wellFormedC
      intersection_comm := intersection_comm wellFormedA wellFormedB
      intersection_assoc := intersection_assoc wellFormedA wellFormedB wellFormedC
      difference_comm := difference_comm wellFormedA wellFormedB
      difference_eq := difference_eq_union wellFormedA wellFormedB
      union_complement := union_complement_eq wellFormedA wellFormedB
      union_intersection := union_intersection_distrib wellFormedA wellFormedB wellFormedC
      eq_parts := eq_union_of_parts wellFormedA wellFormedB }

/-- The laws hold of three bags of numbers, whose unions fit a counter. -/
theorem reachable_algebra_numbers :
    AlgebraLaws (⟨[(1, 3), (2, 1)]⟩ : Bag Int) ⟨[(1, 1), (2, 2), (3, 1)]⟩ ⟨[(3, 1), (1, 1)]⟩ ∧
      Agree ((⟨[(1, 3), (2, 1)]⟩ : Bag Int).union ⟨[(1, 1), (2, 2), (3, 1)]⟩)
        ((⟨[(1, 1), (2, 2), (3, 1)]⟩ : Bag Int).union ⟨[(1, 3), (2, 1)]⟩) := by
  have first : Bag.ofList [1, 1, 1, 2] = Except.ok (⟨[(1, 3), (2, 1)]⟩ : Bag Int) := rfl
  have second : Bag.ofList [1, 2, 2, 3] = Except.ok (⟨[(1, 1), (2, 2), (3, 1)]⟩ : Bag Int) := rfl
  have third : Bag.ofList [3, 1] = Except.ok (⟨[(3, 1), (1, 1)]⟩ : Bag Int) := rfl
  have laws := reachable_algebra (.ofList first) (.ofList second) (.ofList third)
  refine ⟨laws, laws.union_comm fun value => ?_⟩
  rw [count_ofList first, count_ofList second]
  exact (Nat.add_le_add List.count_le_length List.count_le_length).trans (by decide)

end RootFinding.Bag
