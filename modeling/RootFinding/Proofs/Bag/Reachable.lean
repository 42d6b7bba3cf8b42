import RootFinding.Proofs.Bag.Operations

/-!
# Runs of operations on bags

The bags that a run can arrive at are those that the operations build, step by step, from each
other; a table may list its entries in another order at any time. Each step keeps the tables well
formed, so that whatever a run has done, its bags are multisets: `reachable_refines_multiset` says
what each look at a bag tells and what each change of it does.
-/

namespace RootFinding.Bag

open Outcome

/-- The operations on two bags, by name and by operator. -/
inductive Combination where
  | union
  | intersection
  | complement
  | difference
  | add
  | sub
  | and
  | xor

namespace Combination

variable {α : Type} [BEq α]

/-- Combine two bags. -/
def combine : Combination → Bag α → Bag α → Except Fault (Bag α)
  | union, a, b => a.union b
  | intersection, a, b => a.intersection b
  | complement, a, b => a.complement b
  | difference, a, b => a.difference b
  | add, a, b => a + b
  | sub, a, b => a - b
  | and, a, b => a &&& b
  | xor, a, b => a ^^^ b

/-- Combine two multisets. -/
def onMultisets {κ : Type} [DecidableEq κ] :
    Combination → Multiset κ → Multiset κ → Multiset κ
  | union, s, t | add, s, t => s + t
  | intersection, s, t | and, s, t => s ∩ t
  | complement, s, t | sub, s, t => s - t
  | difference, s, t | xor, s, t => (s - t) + (t - s)

end Combination

/-- The bags that runs of operations arrive at. A bag that is cleared is the empty one, and an
operation that overflows arrives at none. -/
inductive Reachable : {α : Type} → [BEq α] → Bag α → Prop where
  | empty {α : Type} [BEq α] : Reachable (∅ : Bag α)
  | ofList {α : Type} [BEq α] {values : List α} {bag : Bag α}
      (built : Bag.ofList values = .ok bag) : Reachable bag
  | insert {α : Type} [BEq α] {bag result : Bag α} {value : α} (reached : Reachable bag)
      (inserted : bag.insert value = .ok result) : Reachable result
  | insertMany {α : Type} [BEq α] {bag result : Bag α} {value : α} {n : Nat}
      (reached : Reachable bag) (inserted : bag.insertMany value n = .ok result) : Reachable result
  | insertAll {α : Type} [BEq α] {bag result : Bag α} {values : List α} (reached : Reachable bag)
      (inserted : bag.insertAll values = .ok result) : Reachable result
  | addList {α : Type} [BEq α] {bag result : Bag α} {values : List α} (reached : Reachable bag)
      (inserted : bag + values = Except.ok result) : Reachable result
  | remove {α : Type} [BEq α] {bag : Bag α} (reached : Reachable bag) (value : α) :
      Reachable (bag.remove value).1
  | removeAll {α : Type} [BEq α] {bag : Bag α} (reached : Reachable bag) (value : α) :
      Reachable (bag.removeAll value).1
  | combine {α : Type} [BEq α] {a b result : Bag α} (operation : Combination)
      (reached : Reachable a) (reachedToo : Reachable b)
      (built : operation.combine a b = .ok result) : Reachable result
  | filter {α : Type} [BEq α] {bag result : Bag α} {p : α → Bool} (reached : Reachable bag)
      (built : bag.filter p = .ok result) : Reachable result
  | map {α β : Type} [BEq α] [BEq β] {bag : Bag β} {result : Bag α} {f : β → α}
      (reached : Reachable bag) (built : bag.map f = .ok result) : Reachable result
  | flatMap {α β : Type} [BEq α] [BEq β] {bag : Bag β} {result : Bag α} {f : β → List α}
      (reached : Reachable bag) (built : bag.flatMap f = .ok result) : Reachable result
  | reorder {α : Type} [BEq α] {bag other : Bag α} (reached : Reachable bag)
      (rearranged : other.entries.Perm bag.entries) : Reachable other

section Invariant

variable {α : Type} [BEq α]

/-- Every operation on two bags keeps tables well formed. -/
theorem wellFormed_combine (operation : Combination) {a b result : Bag α}
    (wellFormedA : WellFormed a.entries) (built : operation.combine a b = .ok result) :
    WellFormed result.entries := by
  have ofDifference {c d : Bag α} (built : c.difference d = .ok result) :
      WellFormed result.entries := by
    obtain ⟨mine, left, built⟩ := bind_eq_ok.mp built
    obtain ⟨yours, _, built⟩ := bind_eq_ok.mp built
    exact wellFormed_insertEntries built (wellFormed_ofEntries left)
  cases operation with
  | union => exact wellFormed_insertEntries built wellFormedA
  | intersection | and => exact wellFormed_ofEntries built
  | complement | sub => exact wellFormed_ofEntries built
  | difference | xor => exact ofDifference built
  | add =>
      have added : a + b = Except.ok result := built
      rw [add_eq] at added
      exact wellFormed_insertAll added wellFormedA

/-- No run leads to a table that is not well formed. -/
theorem Reachable.wellFormed [lawful : PartialEquivBEq α] {bag : Bag α} (reached : Reachable bag) :
    WellFormed bag.entries := by
  revert lawful
  induction reached with
  | empty => exact wellFormed_nil
  | ofList built => exact wellFormed_insertAll built wellFormed_nil
  | insert _ inserted inductionHypothesis | insertMany _ inserted inductionHypothesis =>
      exact wellFormed_insertMany inserted inductionHypothesis
  | insertAll _ inserted inductionHypothesis | addList _ inserted inductionHypothesis =>
      exact wellFormed_insertAll inserted inductionHypothesis
  | remove _ value inductionHypothesis =>
      exact wellFormed_removeEntry value inductionHypothesis
  | removeAll _ value inductionHypothesis =>
      exact wellFormed_removeAll _ value inductionHypothesis
  | combine operation _ _ built inductionHypothesis _ =>
      exact wellFormed_combine operation inductionHypothesis built
  | filter _ built _ | map _ built _ | flatMap _ built _ => exact wellFormed_ofEntries built
  | reorder _ rearranged inductionHypothesis =>
      exact inductionHypothesis.perm rearranged

/-- A bag without entries is one without elements. -/
theorem isEmpty_iff_size {bag : Bag α} (wellFormed : WellFormed bag.entries) :
    bag.isEmpty = true ↔ bag.size = .ok 0 := by
  obtain ⟨entries⟩ := bag
  cases entries with
  | nil => exact iff_of_true rfl rfl
  | cons entry rest =>
      have occurs : 0 < entry.2 := wellFormed.positive entry List.mem_cons_self
      refine iff_of_false Bool.false_ne_true fun empty => ?_
      rw [size_eq] at empty
      split at empty
      · have total : entry.2 + weight rest = 0 := Except.ok.inj empty
        omega
      · cases empty

end Invariant

section Refinement

variable {α : Type} [BEq α] [EquivBEq α]

/-- A multiset is known by the counts that a bag has. -/
theorem elements_eq_of_count {bag : Bag α} (wellFormed : WellFormed bag.entries)
    {multiset : Multiset (Class α)}
    (counted : ∀ value, bag.count value = multiset.count (classOf value)) :
    bag.elements = multiset := by
  ext key
  obtain ⟨value, rfl⟩ := exists_classOf key
  exact (count_eq_count_elements wellFormed BEq.rfl).symm.trans (counted value)

/-- Every operation on two bags is the one on their multisets. -/
theorem elements_combine (operation : Combination) {a b result : Bag α}
    (wellFormedA : WellFormed a.entries) (wellFormedB : WellFormed b.entries)
    (built : operation.combine a b = .ok result) :
    result.elements = operation.onMultisets a.elements b.elements := by
  have countA (value : α) : a.count value = a.elements.count (classOf value) :=
    count_eq_count_elements wellFormedA BEq.rfl
  have countB (value : α) : b.count value = b.elements.count (classOf value) :=
    count_eq_count_elements wellFormedB BEq.rfl
  have ofGiven {counts : α → Nat} {multiset : Multiset (Class α)}
      (given : Gives (operation.combine a b) counts)
      (same : ∀ value, counts value = multiset.count (classOf value)) :
      result.elements = multiset := by
    obtain ⟨other, builtToo, wellFormed, counted⟩ := given
    obtain rfl := Except.ok.inj (built.symm.trans builtToo)
    exact elements_eq_of_count wellFormed fun value => (counted value).trans (same value)
  cases operation with
  | union => exact elements_union built
  | add => exact elements_add built
  | intersection | and =>
      refine ofGiven (gives_intersection wellFormedA wellFormedB) fun value => ?_
      rw [countA, countB]
      exact (Multiset.count_inter _ _ _).symm
  | complement | sub =>
      refine ofGiven (gives_complement wellFormedA b) fun value => ?_
      rw [countA, countB]
      exact (Multiset.count_sub _ _ _).symm
  | difference | xor =>
      refine ofGiven (gives_difference wellFormedA wellFormedB) fun value => ?_
      rw [countA, countB, Combination.onMultisets, Multiset.count_add, Multiset.count_sub,
        Multiset.count_sub]

/-- A bag contains what occurs in it. -/
theorem contains_iff_count {bag : Bag α} (wellFormed : WellFormed bag.entries) (value : α) :
    bag.contains value = true ↔ 0 < bag.count value := by
  rw [count_pos_iff wellFormed, contains, List.any_eq_true]

/-- There are as many entries as values that occur. -/
theorem distinct_eq_ncard {bag : Bag α} (wellFormed : WellFormed bag.entries) :
    bag.distinct = {key | 0 < bag.elements.count key}.ncard := by
  have occurring : {key | 0 < bag.elements.count key} = ↑bag.keys.toFinset := by
    ext key
    obtain ⟨value, rfl⟩ := exists_classOf key
    rw [Finset.mem_coe, List.mem_toFinset]
    rw [classOf_mem_keys wellFormed BEq.rfl, count_eq_count_elements wellFormed BEq.rfl]
    rfl
  rw [occurring, Set.ncard_coe_finset,
    List.toFinset_card_of_nodup (nodup_keys wellFormed (selfEqual _)), length_keys]

/-- Taking a value out lowers its count by one, and that of no other value. -/
theorem count_remove {bag : Bag α} (wellFormed : WellFormed bag.entries) (value other : α) :
    (bag.remove value).1.count other = bag.count other - if value == other then 1 else 0 := by
  have wellFormedAfter : WellFormed (bag.remove value).1.entries :=
    wellFormed_removeEntry value wellFormed
  rw [count_eq_count_elements wellFormedAfter BEq.rfl, elements_remove wellFormed BEq.rfl,
    count_eq_count_elements wellFormed BEq.rfl]
  by_cases same : (value == other) = true
  · rw [if_pos same, classOf_eq_of_beq same, Multiset.count_erase_self]
  · have different : classOf other ≠ classOf value :=
      fun merged => same ((classOf_eq_iff_beq BEq.rfl).mp merged.symm)
    rw [if_neg same, Multiset.count_erase_of_ne different, Nat.sub_zero]

/-- Taking every occurrence of a value out leaves none of it, and the counts of other values. -/
theorem count_removeAll {bag : Bag α} (wellFormed : WellFormed bag.entries) (value other : α) :
    (bag.removeAll value).1.count other = if value == other then 0 else bag.count other := by
  have wellFormedAfter := wellFormed_removeAll bag value wellFormed
  rw [count_eq_count_elements wellFormedAfter BEq.rfl, elements_removeAll wellFormed BEq.rfl,
    Multiset.count_filter, count_eq_count_elements wellFormed BEq.rfl]
  by_cases same : (value == other) = true
  · rw [if_pos same, if_neg (not_not.mpr (classOf_eq_of_beq same).symm)]
  · have different : classOf other ≠ classOf value :=
      fun merged => same ((classOf_eq_iff_beq BEq.rfl).mp merged.symm)
    rw [if_neg same, if_pos different]

/-- What looking at a bag tells and what changing it does, in terms of its counts and of its
multiset. -/
structure RefinesMultiset (bag : Bag α) : Prop where
  /-- No value has two entries, and no entry is empty. -/
  apart : (bag.entries.map Prod.fst).Pairwise fun value other => (value == other) = false
  positive : ∀ entry ∈ bag.entries, 0 < entry.2
  /-- A look-up finds the multiplicity. -/
  count : ∀ value, bag.count value = bag.elements.count (classOf value)
  contains : ∀ value, bag.contains value = true ↔ 0 < bag.count value
  isEmpty : bag.isEmpty = true ↔ bag.size = .ok 0
  size : bag.size =
    if ∑ key ∈ bag.elements.toFinset, bag.elements.count key ≤ countLimit
    then .ok (∑ key ∈ bag.elements.toFinset, bag.elements.count key) else .error .countOverflow
  distinct : bag.distinct = {key | 0 < bag.elements.count key}.ncard
  beq : ∀ other : Bag α, Reachable other →
    ((bag == other) = true ↔ ∀ value, bag.count value = other.count value)
  /-- Insertions happen where the counts fit a counter, and raise the counts of what is
  inserted. -/
  insertMany : ∀ value n, bag.count value + n ≤ countLimit →
    ∃ result, bag.insertMany value n = .ok result
  count_insertMany : ∀ value n result, bag.insertMany value n = .ok result →
    ∀ other, result.count other = bag.count other + if value == other then n else 0
  insertAll : ∀ values : List α, (∀ value, bag.count value + values.count value ≤ countLimit) →
    ∃ result, bag.insertAll values = .ok result
  count_insertAll : ∀ values result, bag.insertAll values = .ok result →
    ∀ value, result.count value = bag.count value + values.count value
  /-- Removals tell what there was, and lower the count of what is removed. -/
  remove : ∀ value, (bag.remove value).2 = true ↔ 0 < bag.count value
  count_remove : ∀ value other,
    (bag.remove value).1.count other = bag.count other - if value == other then 1 else 0
  removeAll : ∀ value, (bag.removeAll value).2 = bag.count value
  count_removeAll : ∀ value other,
    (bag.removeAll value).1.count other = if value == other then 0 else bag.count other
  /-- Operations on bags happen where the multiplicities fit a counter, and are those on
  multisets. -/
  combine : ∀ operation (other : Bag α), Reachable other →
    (∀ key, (operation.onMultisets bag.elements other.elements).count key ≤ countLimit) →
      ∃ result, Combination.combine operation bag other = .ok result
  elements_combine : ∀ operation (other result : Bag α), Reachable other →
    Combination.combine operation bag other = .ok result →
      result.elements = operation.onMultisets bag.elements other.elements
  filter : ∀ p, ∃ result, bag.filter p = .ok result
  elements_filter : ∀ p result, bag.filter p = .ok result →
    result.elements = classes (bag.toList.filter p)
  map : ∀ {β : Type} [BEq β] [EquivBEq β] (f : α → β),
    (∀ image, (bag.toList.map f).count image ≤ countLimit) → ∃ result, bag.map f = .ok result
  elements_map : ∀ {β : Type} [BEq β] [EquivBEq β] (f : α → β) (result : Bag β),
    bag.map f = .ok result → result.elements = classes (bag.toList.map f)
  flatMap : ∀ {β : Type} [BEq β] [EquivBEq β] (f : α → List β),
    (∀ image, (bag.toList.flatMap f).count image ≤ countLimit) →
      ∃ result, bag.flatMap f = .ok result
  elements_flatMap : ∀ {β : Type} [BEq β] [EquivBEq β] (f : α → List β) (result : Bag β),
    bag.flatMap f = .ok result → result.elements = classes (bag.toList.flatMap f)

/-- Inserted values raise each count by the number of times the value is among them. -/
theorem count_insertAll {bag result : Bag α} {values : List α}
    (inserted : bag.insertAll values = .ok result) (value : α) :
    result.count value = bag.count value + values.count value := by
  rw [insertAll_eq_insertEntries] at inserted
  rw [count_insertEntries inserted, expand_map_one]

/-- Values can be inserted where every count would still fit a counter. -/
theorem exists_insertAll_of_count (bag : Bag α) (values : List α)
    (fits : ∀ value, bag.count value + values.count value ≤ countLimit) :
    ∃ result, bag.insertAll values = .ok result := by
  rw [insertAll_eq_insertEntries]
  refine exists_insertEntries_of_count bag _ fun value => ?_
  rw [expand_map_one]
  exact fits value

/-- Entries build a bag where every count fits a counter. -/
theorem exists_ofEntries {entries : List (α × Nat)}
    (fits : ∀ value, (expand entries).count value ≤ countLimit) :
    ∃ result, ofEntries entries = .ok result :=
  exists_insertEntries_of_count ∅ entries fun value => (Nat.zero_add _).trans_le (fits value)

/-- Two bags can be combined where the multiplicities of the result fit a counter. -/
theorem exists_combine (operation : Combination) {a b : Bag α} (wellFormedA : WellFormed a.entries)
    (wellFormedB : WellFormed b.entries)
    (fits : ∀ key, (operation.onMultisets a.elements b.elements).count key ≤ countLimit) :
    ∃ result, operation.combine a b = .ok result := by
  have sums (fits : ∀ key, (a.elements + b.elements).count key ≤ countLimit) (value : α) :
      a.count value + b.count value ≤ countLimit := by
    rw [count_eq_count_elements wellFormedA BEq.rfl, count_eq_count_elements wellFormedB BEq.rfl,
      ← Multiset.count_add]
    exact fits _
  cases operation with
  | union => exact (gives_union wellFormedA wellFormedB (sums fits)).exists_ok
  | add =>
      obtain ⟨result, built⟩ := exists_insertAll_of_count a b.intoList fun value => by
        rw [intoList_eq, ← countIn_eq_count value wellFormedB.apart, ← count_eq_countIn]
        exact sums fits value
      exact ⟨result, (add_eq a b).trans built⟩
  | intersection | and => exact (gives_intersection wellFormedA wellFormedB).exists_ok
  | complement | sub => exact (gives_complement wellFormedA b).exists_ok
  | difference | xor => exact (gives_difference wellFormedA wellFormedB).exists_ok

omit [EquivBEq α] in
/-- A selection of elements is always a bag. -/
theorem exists_filter {bag : Bag α} (wellFormed : WellFormed bag.entries) (p : α → Bool) :
    ∃ result, bag.filter p = .ok result :=
  ⟨_, filter_of_wellFormed wellFormed p⟩

section Images

variable {β : Type} {bag : Bag β}

/-- The images of elements are a bag where their counts fit a counter. -/
theorem exists_map {f : β → α} (fits : ∀ image, (bag.toList.map f).count image ≤ countLimit) :
    ∃ result, bag.map f = .ok result := by
  refine exists_ofEntries fun image => ?_
  rw [expand_map, ← toList_eq]
  exact fits image

/-- A flat map has a result if every image occurs no more often than a counter holds. -/
theorem exists_flatMap_of_count {f : β → List α}
    (fits : ∀ image, (bag.toList.flatMap f).count image ≤ countLimit) :
    ∃ result, bag.flatMap f = .ok result := by
  refine exists_ofEntries fun image => ?_
  have images := (expand_imageEntries f bag.entries).countP_eq (· == image)
  rw [← toList_eq bag] at images
  exact images.trans_le (fits image)

end Images

/-- The counts of a bag that is built from a list are the numbers of occurrences in the list. -/
theorem count_ofList {values : List α} {bag : Bag α} (built : ofList values = .ok bag) (value : α) :
    bag.count value = values.count value :=
  (count_insertAll built value).trans (Nat.zero_add _)

/-- A bag that a list builds is built by the list in any other order, too. -/
theorem exists_ofList_of_perm {values rearranged : List α} {bag : Bag α}
    (built : ofList values = .ok bag) (sameValues : rearranged.Perm values) :
    ∃ other, ofList rearranged = .ok other ∧ (other == bag) = true := by
  have wellFormed := Reachable.wellFormed (.ofList built)
  have fits (value : α) : (∅ : Bag α).count value + rearranged.count value ≤ countLimit := by
    rw [sameValues.count_eq, ← count_ofList built]
    exact (Nat.zero_add _).trans_le (count_le_countLimit wellFormed value)
  obtain ⟨other, builtToo⟩ := exists_insertAll_of_count ∅ rearranged fits
  have wellFormedToo := Reachable.wellFormed (.ofList builtToo)
  refine ⟨other, builtToo, ?_⟩
  rw [beq_iff_elements wellFormedToo wellFormed (selfEqual _) (selfEqual _), elements_ofList built,
    elements_ofList builtToo, classes_eq_of_perm sameValues]

/-- Runs of operations on bags are runs of operations on multisets: every bag that a run arrives at
stands for one, by its counts. Collecting a list counts its values, in whatever order. -/
theorem reachable_refines_multiset {bag : Bag α} (reached : Reachable bag) :
    RefinesMultiset bag ∧
      ∀ (values : List α) (collected : Bag α), ofList values = .ok collected →
        (∀ value, collected.count value = values.count value) ∧
        ∀ rearranged : List α, rearranged.Perm values →
          ∃ other, ofList rearranged = .ok other ∧ (other == collected) = true := by
  have wellFormed := reached.wellFormed
  refine ⟨?_, fun values collected built =>
    ⟨count_ofList built, fun rearranged => exists_ofList_of_perm built⟩⟩
  have total : ∑ key ∈ bag.elements.toFinset, bag.elements.count key = bag.total := by
    rw [Multiset.toFinset_sum_count_eq, card_elements]
  exact
    { apart := wellFormed.apart
      positive := wellFormed.positive
      count := fun value => count_eq_count_elements wellFormed BEq.rfl
      contains := contains_iff_count wellFormed
      isEmpty := isEmpty_iff_size wellFormed
      size := by rw [total, size_eq]
      distinct := distinct_eq_ncard wellFormed
      beq := fun other reachedToo =>
        beq_iff_count wellFormed reachedToo.wellFormed (selfEqual _) (selfEqual _)
      insertMany := fun value n => exists_insertMany_of_count bag value
      count_insertMany := fun value n result => Bag.count_insertMany
      insertAll := exists_insertAll_of_count bag
      count_insertAll := fun values result => Bag.count_insertAll
      remove := contains_iff_count wellFormed
      count_remove := Bag.count_remove wellFormed
      removeAll := fun value => rfl
      count_removeAll := Bag.count_removeAll wellFormed
      combine := fun operation other reachedToo =>
        exists_combine operation wellFormed reachedToo.wellFormed
      elements_combine := fun operation other result reachedToo =>
        elements_combine operation wellFormed reachedToo.wellFormed
      filter := exists_filter wellFormed
      elements_filter := fun p result => elements_filter
      map := fun f => exists_map
      elements_map := fun f result => elements_map
      flatMap := fun f => exists_flatMap_of_count
      elements_flatMap := fun f result => elements_flatMap }

/-- What is left of the numbers `1, 1, 2` without the `2` stands for a multiset. -/
theorem reachable_refines_multiset_removed :
    Bag.ofList [1, 1, 2] = Except.ok (⟨[(1, 2), (2, 1)]⟩ : Bag Int) ∧
      RefinesMultiset (⟨[(1, 2)]⟩ : Bag Int) :=
  have built : Bag.ofList [1, 1, 2] = Except.ok (⟨[(1, 2), (2, 1)]⟩ : Bag Int) := rfl
  ⟨built, (reachable_refines_multiset ((Reachable.ofList built).remove 2)).1⟩

end Refinement

end RootFinding.Bag
