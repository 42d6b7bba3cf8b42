import RootFinding.Proofs.Bag.Algebra
import RootFinding.Proofs.Bag.Overflow

/-!
# Whole entries and single elements

Images, selections and unions visit each entry once and carry its count along. The same bags come of
visiting the elements one by one, in whatever order another table of the same bag yields them, and
of inserting one occurrence at a time: all that matters is how often each value is inserted. Where
one of the two ways overflows, so does the other.

A union keeps the values that the left table stores, and of the right one those that the left one
has nothing equal to.
-/

namespace RootFinding.Bag

open Outcome

variable {α β : Type} [BEq α] [BEq β]

/-- Two computations give equal bags, or both overflow. -/
def SameOutcome (first second : Except Fault (Bag α)) : Prop :=
  Agree first second ∨ first = .error .countOverflow ∧ second = .error .countOverflow

/-- Computations that overflow under the same condition have the same outcome if they give equal
bags. -/
theorem OverflowsIff.sameOutcome {first second : Except Fault (Bag α)} {tooLarge : Prop}
    (overflows : OverflowsIff first tooLarge) (overflowsToo : OverflowsIff second tooLarge)
    (equal : ∀ a b, first = .ok a → second = .ok b → (a == b) = true) :
    SameOutcome first second := by
  by_cases large : tooLarge
  · exact Or.inr ⟨overflows.1 large, overflowsToo.1 large⟩
  · obtain ⟨a, givesA⟩ := overflows.2 large
    obtain ⟨b, givesB⟩ := overflowsToo.2 large
    exact Or.inl ⟨a, b, givesA, givesB, equal a b givesA givesB⟩

section Insertion

variable [EquivBEq α]

/-- Of inserted entries it only matters how often each value occurs in them. -/
theorem sameOutcome_insertEntries {bag : Bag α} (wellFormed : WellFormed bag.entries)
    {entries others : List (α × Nat)}
    (same : ∀ value, (expand entries).count value = (expand others).count value) :
    SameOutcome (bag.insertEntries entries) (bag.insertEntries others) := by
  have overflows := overflowsIff_insertEntries wellFormed entries
  simp only [same] at overflows
  refine overflows.sameOutcome (overflowsIff_insertEntries wellFormed others) ?_
  intro a b givesA givesB
  rw [beq_iff_count (wellFormed_insertEntries givesA wellFormed)
    (wellFormed_insertEntries givesB wellFormed) (selfEqual _) (selfEqual _)]
  intro value
  rw [count_insertEntries givesA, count_insertEntries givesB, same]

/-- The bag of entries is that of single values that occur as often. -/
theorem sameOutcome_ofList {entries : List (α × Nat)} {values : List α}
    (same : ∀ value, (expand entries).count value = values.count value) :
    SameOutcome (ofEntries entries) (ofList values) := by
  rw [ofList, insertAll_eq_insertEntries]
  refine sameOutcome_insertEntries wellFormed_nil fun value => ?_
  rw [expand_map_one, same]

end Insertion

section Images

variable [EquivBEq α]

/-- A quantity that is the same for equal values, as one of classes. -/
def ofClass (quantity : α → Nat) (congruent : ∀ x y, (x == y) = true → quantity x = quantity y) :
    Class α → Nat :=
  Quotient.lift quantity fun x y (merged : x = y ∨ (x == y) = true) =>
    merged.elim (congrArg quantity) (congruent x y)

/-- Equal bags have one sum of a quantity that is the same for equal values. -/
theorem sum_map_eq_of_classes {quantity : α → Nat}
    (congruent : ∀ x y, (x == y) = true → quantity x = quantity y) {values others : List α}
    (same : classes values = classes others) :
    (values.map quantity).sum = (others.map quantity).sum := by
  have summed (values : List α) :
      (values.map quantity).sum = ((classes values).map (ofClass quantity congruent)).sum := by
    rw [classes, Multiset.map_coe, Multiset.sum_coe, List.map_map]
    rfl
  rw [summed, summed, same]

/-- Equal bags have the same images, up to equality and order, under a function that respects
equality. -/
theorem count_flatMap_eq {f : α → List β}
    (respects : ∀ x y, (x == y) = true → ∀ image, (f x).count image = (f y).count image)
    {values others : List α} (same : classes values = classes others) (image : β) :
    (values.flatMap f).count image = (others.flatMap f).count image := by
  rw [List.count_flatMap, List.count_flatMap]
  exact sum_map_eq_of_classes (fun x y equal => respects x y equal image) same

/-- Lists of the same classes have images of the same counts. -/
theorem count_map_eq [PartialEquivBEq β] {f : α → β}
    (respects : ∀ x y, (x == y) = true → (f x == f y) = true) {values others : List α}
    (same : classes values = classes others) (image : β) :
    (values.map f).count image = (others.map f).count image := by
  rw [List.map_eq_flatMap, List.map_eq_flatMap]
  refine count_flatMap_eq (fun x y equal image => ?_) same image
  rw [List.count_singleton, List.count_singleton, BEq.congr_left (respects x y equal)]

/-- Lists of the same classes have selections of the same counts. -/
theorem count_filter_eq {p : α → Bool} (respects : ∀ x y, (x == y) = true → p x = p y)
    {values others : List α} (same : classes values = classes others) (value : α) :
    (values.filter p).count value = (others.filter p).count value := by
  rw [← List.filterMap_eq_filter, List.filterMap_eq_flatMap_toList,
    List.filterMap_eq_flatMap_toList]
  refine count_flatMap_eq (fun x y equal value => ?_) same value
  rw [Option.guard, Option.guard, respects x y equal]
  split
  · rw [Option.toList_some, Option.toList_some, List.count_singleton, List.count_singleton,
      BEq.congr_left equal]
  · rfl

end Images

section Unions

/-- Adding one occurrence at a time is adding whole counts. -/
theorem union_eq_add [ReflBEq α] (a b : Bag α) : a.union b = a + b := by
  rw [add_eq, intoList_eq, insertAll_expand, union]

/-- However a sum takes its operands, it is the union. -/
theorem apply_add [ReflBEq α] (operands : Operands) (a b : Bag α) :
    Operator.add.apply operands a b = a.union b := by
  cases operands with
  | owned => exact (union_eq_add a b).symm
  | borrowed => rfl
  | inPlace => exact (union_eq_add a b).symm

/-- The values that stand in a table for what they are equal to. -/
def representatives (bag : Bag α) : List α := bag.entries.map Prod.fst

/-- A bag contains what equals one of its representatives. -/
theorem contains_eq_any (bag : Bag α) (value : α) :
    bag.contains value = bag.representatives.any (· == value) := by
  rw [representatives, List.any_map]
  rfl

/-- Raising a count stores the value, unless one that is equal to it is stored. -/
theorem Raised.map_fst {value : α} {n : Nat} {entries result : List (α × Nat)}
    (raised : Raised value n entries result) :
    result.map Prod.fst = entries.map Prod.fst ++
      if entries.any (fun entry => entry.1 == value) then [] else [value] := by
  induction raised with
  | new fits => rfl
  | here same fits => simp [same]
  | later other _ inductionHypothesis =>
      simp only [List.map_cons, inductionHypothesis, List.any_cons, other, Bool.false_or,
        List.cons_append]

/-- A new value becomes its own representative, and an old one keeps what it has. -/
theorem representatives_insertMany {bag result : Bag α} {value : α} {n : Nat} (positive : 0 < n)
    (inserted : bag.insertMany value n = .ok result) :
    result.representatives = bag.representatives ++ if bag.contains value then [] else [value] := by
  rcases raised_of_insertMany inserted with ⟨rfl, _⟩ | ⟨_, raised⟩
  · exact absurd positive (Nat.lt_irrefl 0)
  · exact raised.map_fst

/-- Entries whose values are apart store the values that the bag has nothing equal to. -/
theorem representatives_insertEntries {bag result : Bag α} {entries : List (α × Nat)}
    (wellFormed : WellFormed entries) (inserted : bag.insertEntries entries = .ok result) :
    result.representatives =
      bag.representatives ++ (entries.map Prod.fst).filter fun value => !bag.contains value := by
  induction entries generalizing bag with
  | nil =>
      obtain rfl := Except.ok.inj inserted
      exact (List.append_nil _).symm
  | cons entry rest inductionHypothesis =>
      rw [insertEntries, List.foldlM_cons, bind_eq_ok] at inserted
      obtain ⟨middle, first, others⟩ := inserted
      obtain ⟨apart, positive, _, restWellFormed⟩ := wellFormed_cons.mp wellFormed
      have storedMiddle := representatives_insertMany positive first
      -- The values that follow are apart from the first, so that it hides none of them.
      have unaffected : ∀ value ∈ rest.map Prod.fst,
          (!middle.contains value) = !bag.contains value := by
        intro value member
        rw [contains_eq_any, contains_eq_any, storedMiddle, List.any_append]
        split
        · rw [List.any_nil, Bool.or_false]
        · rw [List.any_cons, apart value member, List.any_nil, Bool.or_false, Bool.or_false]
      rw [inductionHypothesis restWellFormed others, List.filter_congr unaffected, storedMiddle,
        List.append_assoc, List.map_cons, List.filter_cons]
      congr 1
      cases bag.contains entry.1 with
      | true => rfl
      | false => rfl

variable [EquivBEq α]

/-- A table is known by the values that it stores and by the counts. -/
theorem entries_eq_map_representatives {bag : Bag α} (wellFormed : WellFormed bag.entries) :
    bag.entries = bag.representatives.map fun value => (value, bag.count value) := by
  rw [representatives, List.map_map]
  refine (List.map_id _).symm.trans (List.map_congr_left fun entry member => ?_)
  exact Prod.ext rfl (count_of_mem wellFormed (selfEqual _) member).symm

/-- A union has the values of the left table, and of the right one those that are missing there,
with the sums of their counts. -/
theorem entries_union {a b sum : Bag α} (wellFormedA : WellFormed a.entries)
    (wellFormedB : WellFormed b.entries) (built : a.union b = .ok sum) :
    sum.entries = (a.representatives ++ b.representatives.filter fun value => !a.contains value).map
      fun value => (value, a.count value + b.count value) := by
  have counted (value : α) : sum.count value = a.count value + b.count value := by
    rw [count_insertEntries built, count_eq_countIn b, countIn_eq_count value wellFormedB.apart]
  rw [entries_eq_map_representatives (wellFormed_insertEntries built wellFormedA),
    representatives_insertEntries wellFormedB built, funext counted]
  rfl

end Unions

/-- What bulk operations have to do with single elements. -/
structure BulkLaws [EquivBEq α] (a b : Bag α) : Prop where
  /-- Images and selections are collected from the elements that a walk over the bag yields, in
  whatever order and by whichever of several equal values. -/
  map : ∀ {β : Type} [BEq β] [EquivBEq β] (f : α → β),
    (∀ x y, (x == y) = true → (f x == f y) = true) →
      ∀ walked, Reachable walked → (walked == a) = true →
        SameOutcome (a.map f) (ofList (walked.toList.map f))
  flatMap : ∀ {β : Type} [BEq β] [EquivBEq β] (f : α → List β),
    (∀ x y, (x == y) = true → ∀ image, (f x).count image = (f y).count image) →
      ∀ walked, Reachable walked → (walked == a) = true →
        SameOutcome (a.flatMap f) (ofList (walked.toList.flatMap f))
  filter : ∀ p : α → Bool, (∀ x y, (x == y) = true → p x = p y) →
    ∀ walked, Reachable walked → (walked == a) = true →
      SameOutcome (a.filter p) (ofList (walked.toList.filter p))
  /-- A sum is the union, however it takes its operands and in whatever order the right one is
  walked. -/
  add : ∀ operands (walked : Bag α), walked.entries.Perm b.entries →
    SameOutcome (a.union b) (Operator.add.apply operands a walked)
  /-- It stores the values of the left bag, and of the right one those that are missing there. -/
  stored : ∀ operands (walked sum : Bag α), walked.entries.Perm b.entries →
    Operator.add.apply operands a walked = .ok sum →
      sum.entries.Perm
        ((a.representatives ++ b.representatives.filter fun value => !a.contains value).map
          fun value => (value, a.count value + b.count value))
  /-- The other operators are the functions. -/
  sub : ∀ operands, Operator.sub.apply operands a b = a.complement b
  and : ∀ operands, Operator.and.apply operands a b = a.intersection b
  xor : ∀ operands, Operator.xor.apply operands a b = a.difference b

/-- Bulk operations on bags that runs arrive at do what working element by element does. -/
theorem bulk_eq_elementwise [EquivBEq α] {a b : Bag α} (reachedA : Reachable a)
    (reachedB : Reachable b) : BulkLaws a b := by
  have wellFormedA := reachedA.wellFormed
  have wellFormedB := reachedB.wellFormed
  have sameClasses {walked : Bag α} (reached : Reachable walked) (equal : (walked == a) = true) :
      classes (expand a.entries) = classes walked.toList := by
    rw [beq_iff_elements reached.wellFormed wellFormedA (selfEqual _) (selfEqual _)] at equal
    exact (elements_eq a).symm.trans equal.symm
  exact
    { map := fun f respects walked reached equal => sameOutcome_ofList fun image => by
        rw [expand_map]
        exact count_map_eq respects (sameClasses reached equal) image
      flatMap := fun f respects walked reached equal => sameOutcome_ofList fun image => by
        rw [← count_flatMap_eq respects (sameClasses reached equal)]
        exact (expand_imageEntries f a.entries).count_eq image
      filter := fun p respects walked reached equal => sameOutcome_ofList fun value => by
        rw [expand_filter]
        exact count_filter_eq respects (sameClasses reached equal) value
      add := fun operands walked rearranged => by
        rw [apply_add]
        refine sameOutcome_insertEntries wellFormedA fun value => ?_
        rw [← toList_eq, ← toList_eq, (toList_perm rearranged).count_eq]
      stored := fun operands walked sum rearranged added => by
        rw [apply_add] at added
        have same := count_eq_of_perm rearranged wellFormedB
        rw [entries_union wellFormedA (wellFormedB.perm rearranged) added, funext same]
        exact (((rearranged.map Prod.fst).filter _).append_left _).map _
      sub := fun operands => by cases operands <;> rfl
      and := fun operands => by cases operands <;> rfl
      xor := fun operands => by cases operands <;> rfl }

/-- The residues of `1, 1, 2` modulo two are collected from `2, 1, 1` as well, and adding `2, 3` in
place stores `3` after `1` and `2`. -/
theorem bulk_eq_elementwise_numbers :
    SameOutcome ((⟨[(1, 2), (2, 1)]⟩ : Bag Int).map (· % 2)) (Bag.ofList [0, 1, 1]) ∧
      ∃ sum, Operator.add.apply .inPlace (⟨[(1, 2), (2, 1)]⟩ : Bag Int) ⟨[(2, 1), (3, 1)]⟩ =
        .ok sum ∧ sum.entries.Perm [(1, 2), (2, 2), (3, 1)] := by
  have left : Bag.ofList [1, 1, 2] = Except.ok (⟨[(1, 2), (2, 1)]⟩ : Bag Int) := rfl
  have right : Bag.ofList [2, 3] = Except.ok (⟨[(2, 1), (3, 1)]⟩ : Bag Int) := rfl
  have other : Bag.ofList [2, 1, 1] = Except.ok (⟨[(2, 1), (1, 2)]⟩ : Bag Int) := rfl
  have laws := bulk_eq_elementwise (.ofList left) (.ofList right)
  refine ⟨laws.map (· % 2) (fun x y same => ?_) _ (.ofList other) rfl, _, rfl, ?_⟩
  · rw [eq_of_beq same, beq_self_eq_true]
  · exact laws.stored .inPlace _ _ (List.Perm.refl _) rfl

end RootFinding.Bag
