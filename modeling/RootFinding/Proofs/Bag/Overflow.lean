import RootFinding.Bag.Matching
import RootFinding.Proofs.Bag.Reachable

/-!
# Where counters overflow

Every addition of counts is checked, and the first sum that a counter cannot hold ends an operation.
Counts only grow while a bag is built, so an intermediate sum is too large exactly if a count of the
result would be: whether an operation overflows does not depend on the order in which the tables are
walked. Operations that select elements do not overflow. A size adds all counts, which may be too
large although each of them fits.
-/

namespace RootFinding.Bag

open Outcome

variable {α : Type} [BEq α]

/-- A computation overflows where something is too large for a counter, and finishes where it is
not. -/
def OverflowsIff {ρ : Type} (computation : Except Fault ρ) (tooLarge : Prop) : Prop :=
  (tooLarge → computation = .error .countOverflow) ∧
    (¬tooLarge → ∃ result, computation = .ok result)

namespace OverflowsIff

variable {ρ : Type} {computation : Except Fault ρ} {tooLarge : Prop}

/-- A computation without any other fault overflows exactly where something is too large, if it
finishes exactly where nothing is. -/
theorem of_ok_iff (onlyOverflow : ∀ cause, computation = .error cause → cause = .countOverflow)
    (finishes : ¬tooLarge → ∃ result, computation = .ok result)
    (fits : ∀ result, computation = .ok result → ¬tooLarge) :
    OverflowsIff computation tooLarge := by
  refine ⟨fun large => ?_, finishes⟩
  cases outcome : computation with
  | error cause => rw [onlyOverflow cause outcome]
  | ok result => exact absurd large (fits result outcome)

/-- The condition may be replaced by an equivalent one. -/
theorem congr {other : Prop} (overflows : OverflowsIff computation tooLarge)
    (same : other ↔ tooLarge) : OverflowsIff computation other := by
  rwa [propext same]

/-- A result that is there overflows nowhere. -/
theorem pure (result : ρ) : OverflowsIff (Except.ok result) False :=
  ⟨False.elim, fun _ => ⟨result, rfl⟩⟩

/-- A sequence overflows where one of its parts does. -/
theorem bind {σ : Type} {rest : ρ → Except Fault σ} {tooLargeAfter : Prop}
    (overflows : OverflowsIff computation tooLarge)
    (overflowsAfter : ∀ result, OverflowsIff (rest result) tooLargeAfter) :
    OverflowsIff (computation >>= rest) (tooLarge ∨ tooLargeAfter) := by
  by_cases large : tooLarge
  · refine ⟨fun _ => ?_, fun few => absurd (Or.inl large) few⟩
    rw [overflows.1 large, error_bind]
  · obtain ⟨result, finished⟩ := overflows.2 large
    rw [finished, ok_bind]
    exact (overflowsAfter result).congr (or_iff_right large)

end OverflowsIff

section Insertion

variable [EquivBEq α] {bag : Bag α} (wellFormed : WellFormed bag.entries)
include wellFormed

/-- Occurrences of a value overflow exactly if they are too many for its count. -/
theorem overflowsIff_insertMany (value : α) (n : Nat) :
    OverflowsIff (bag.insertMany value n) (countLimit < bag.count value + n) := by
  refine .of_ok_iff (fun _ => eq_countOverflow_of_insertMany) (fun few => ?_)
    fun result inserted => ?_
  · exact exists_insertMany_of_count bag value (Nat.le_of_not_lt few)
  · have counted := count_insertMany_self BEq.rfl inserted
    have bounded := count_le_countLimit (wellFormed_insertMany inserted wellFormed) value
    omega

/-- Inserted entries overflow exactly if a count of the result would be too large, and not for an
intermediate one. -/
theorem overflowsIff_insertEntries (entries : List (α × Nat)) :
    OverflowsIff (bag.insertEntries entries)
      (∃ value, countLimit < bag.count value + (expand entries).count value) := by
  refine .of_ok_iff (fun _ => eq_countOverflow_of_insertEntries) (fun few => ?_)
    fun result inserted => ?_
  · refine exists_insertEntries_of_count bag entries fun value => ?_
    exact Nat.le_of_not_lt fun large => few ⟨value, large⟩
  · -- A bag that was built has its counts, and all of them fit.
    rintro ⟨value, large⟩
    have counted := count_insertEntries inserted value
    have bounded := count_le_countLimit (wellFormed_insertEntries inserted wellFormed) value
    omega

/-- Inserting a list overflows exactly if the copies of a value are too many for a counter. -/
theorem overflowsIff_insertAll (values : List α) :
    OverflowsIff (bag.insertAll values)
      (∃ value, countLimit < bag.count value + values.count value) := by
  have overflows := overflowsIff_insertEntries wellFormed (values.map fun value => (value, 1))
  rwa [← insertAll_eq_insertEntries, expand_map_one] at overflows

end Insertion

section Building

variable [EquivBEq α]

/-- A bag from entries overflows exactly if a value is in them more often than a counter holds. -/
theorem overflowsIff_ofEntries (entries : List (α × Nat)) :
    OverflowsIff (ofEntries entries) (∃ value, countLimit < (expand entries).count value) := by
  refine (overflowsIff_insertEntries wellFormed_nil entries).congr (exists_congr fun value => ?_)
  rw [count_eq_countIn, countIn_nil, Nat.zero_add]

/-- A bag from a list overflows exactly if a value is in it more often than a counter holds. -/
theorem overflowsIff_ofList (values : List α) :
    OverflowsIff (ofList values) (∃ value, countLimit < values.count value) := by
  have overflows := overflowsIff_ofEntries (values.map fun value => (value, 1))
  rwa [ofEntries, ← insertAll_eq_insertEntries, expand_map_one] at overflows

/-- A map overflows exactly if an image occurs more often than a counter holds. -/
theorem overflowsIff_map {β : Type} (f : β → α) (bag : Bag β) :
    OverflowsIff (bag.map f) (∃ image, countLimit < (bag.toList.map f).count image) := by
  have overflows := overflowsIff_ofEntries (bag.entries.map fun entry => (f entry.1, entry.2))
  rwa [expand_map, ← toList_eq] at overflows

/-- A flat map overflows exactly if an image occurs more often than a counter holds. -/
theorem overflowsIff_flatMap {β : Type} (f : β → List α) (bag : Bag β) :
    OverflowsIff (bag.flatMap f) (∃ image, countLimit < (bag.toList.flatMap f).count image) := by
  refine (overflowsIff_ofEntries (imageEntries f bag.entries)).congr (exists_congr fun image => ?_)
  rw [toList_eq, (expand_imageEntries f bag.entries).count_eq]

end Building

section Sizes

omit [BEq α] in
/-- The size overflows exactly if the total is more than a counter holds. -/
theorem overflowsIff_size (bag : Bag α) : OverflowsIff bag.size (countLimit < bag.total) := by
  rw [size_eq]
  split
  · next fits => exact (OverflowsIff.pure bag.total).congr (iff_false_intro (Nat.not_lt.mpr fits))
  · next tooLarge => exact ⟨fun _ => rfl, fun fits => absurd (Nat.lt_of_not_le tooLarge) fits⟩

/-- A comparison overflows exactly if one of the sizes does. -/
theorem overflowsIff_pairsUnder (related : α → α → Bool) (a b : Bag α) :
    OverflowsIff (a.pairsUnder related b) (countLimit < a.total ∨ countLimit < b.total) := by
  rw [pairsUnder_eq]
  refine ((overflowsIff_size a).bind fun sizeA => (overflowsIff_size b).bind fun sizeB =>
    .pure _).congr ?_
  rw [or_false]

end Sizes

/-- Sums of bags add counts, and the other operations on two bags select elements. -/
def Combination.adds : Combination → Bool
  | union | add => true
  | intersection | complement | difference | and | sub | xor => false

section Combination

variable [EquivBEq α] {a b : Bag α}
variable (wellFormedA : WellFormed a.entries) (wellFormedB : WellFormed b.entries)
include wellFormedA wellFormedB

/-- A combination that adds counts overflows exactly if those of a value are too large together. -/
theorem overflowsIff_combine {operation : Combination} (adds : operation.adds = true) :
    OverflowsIff (operation.combine a b) (∃ value, countLimit < a.count value + b.count value) := by
  have counted (value : α) : (expand b.entries).count value = b.count value :=
    (countIn_eq_count value wellFormedB.apart).symm
  cases operation with
  | union =>
      have overflows := overflowsIff_insertEntries wellFormedA b.entries
      simp only [counted] at overflows
      exact overflows
  | add =>
      have overflows := overflowsIff_insertAll wellFormedA b.intoList
      rw [← add_eq, intoList_eq] at overflows
      simp only [counted] at overflows
      exact overflows
  | intersection | complement | difference | and | sub | xor => cases adds

/-- A selection of elements does not overflow: a difference is the sum of two bags that have no
value in common. -/
theorem exists_combine_of_selects {operation : Combination} (selects : operation.adds = false) :
    ∃ result, operation.combine a b = .ok result := by
  cases operation with
  | intersection | and => exact (gives_intersection wellFormedA wellFormedB).exists_ok
  | complement | sub => exact (gives_complement wellFormedA b).exists_ok
  | difference | xor => exact (gives_difference wellFormedA wellFormedB).exists_ok
  | union | add => cases selects

end Combination

section Rearranged

variable [PartialEquivBEq α] {bag other : Bag α} (rearranged : other.entries.Perm bag.entries)
include rearranged

/-- A table in another order has the same counts. -/
theorem count_eq_of_perm (wellFormed : WellFormed bag.entries) (value : α) :
    other.count value = bag.count value := by
  have counted {bag : Bag α} (wellFormed : WellFormed bag.entries) :
      bag.count value = bag.toList.count value := by
    rw [toList_eq]
    exact countIn_eq_count value wellFormed.apart
  rw [counted wellFormed, counted (wellFormed.perm rearranged), (toList_perm rearranged).count_eq]

end Rearranged

section Removal

variable [EquivBEq α] {bag : Bag α} (wellFormed : WellFormed bag.entries)
include wellFormed

/-- A removal does not take out more than there is. -/
theorem count_remove_add (value other : α) : (bag.remove value).1.count other +
    (if value == other && (bag.remove value).2 then 1 else 0) = bag.count other := by
  have found : (bag.remove value).2 = true ↔ 0 < bag.count value :=
    contains_iff_count wellFormed value
  rw [count_remove wellFormed]
  cases same : value == other with
  | false => simp
  | true =>
      rw [← count_congr bag same, Bool.true_and, if_pos rfl]
      split
      · next holds => exact Nat.sub_add_cancel (found.mp holds)
      · next missing =>
        have none : ¬0 < bag.count value := mt found.mpr missing
        omega

/-- What is removed and what is left are the count from before. -/
theorem count_removeAll_add (value other : α) : (bag.removeAll value).1.count other +
    (if value == other then (bag.removeAll value).2 else 0) = bag.count other := by
  rw [count_removeAll wellFormed]
  split
  · next same => exact (Nat.zero_add _).trans (count_congr bag same)
  · rfl

end Removal

/-- What overflows when two bags are operated on, in terms of their counts: `left` and `right` are
the same bags, with their tables in the order in which they are walked. -/
structure OverflowLaws [EquivBEq α] (a b left right : Bag α) : Prop where
  /-- Operations that select elements finish. -/
  selects : ∀ operation : Combination, operation.adds = false →
    ∃ result, operation.combine left right = .ok result
  filter : ∀ p, ∃ result, left.filter p = .ok result
  /-- What is removed was there: together with it, the counts are what they were. -/
  remove : ∀ value other, (left.remove value).1.count other +
    (if value == other && (left.remove value).2 then 1 else 0) = a.count other
  removeAll : ∀ value other, (left.removeAll value).1.count other +
    (if value == other then (left.removeAll value).2 else 0) = a.count other
  /-- Operations that build a bag overflow where a count of the result is too large. -/
  insertMany : ∀ value n, OverflowsIff (left.insertMany value n) (countLimit < a.count value + n)
  insertAll : ∀ values rearranged : List α, rearranged.Perm values →
    OverflowsIff (left.insertAll rearranged)
      (∃ value, countLimit < a.count value + values.count value)
  addList : ∀ values rearranged : List α, rearranged.Perm values →
    OverflowsIff (left + rearranged) (∃ value, countLimit < a.count value + values.count value)
  ofList : ∀ values rearranged : List α, rearranged.Perm values →
    OverflowsIff (Bag.ofList rearranged) (∃ value, countLimit < values.count value)
  adds : ∀ operation : Combination, operation.adds = true →
    OverflowsIff (operation.combine left right)
      (∃ value, countLimit < a.count value + b.count value)
  map : ∀ {β : Type} [BEq β] [EquivBEq β] (f : α → β),
    OverflowsIff (left.map f) (∃ image, countLimit < (a.toList.map f).count image)
  flatMap : ∀ {β : Type} [BEq β] [EquivBEq β] (f : α → List β),
    OverflowsIff (left.flatMap f) (∃ image, countLimit < (a.toList.flatMap f).count image)
  /-- Sizes overflow where the sum of all counts is too large. -/
  size : OverflowsIff left.size (countLimit < a.total)
  pairsUnder : ∀ related : α → α → Bool, OverflowsIff (left.pairsUnder related right)
    (countLimit < a.total ∨ countLimit < b.total)

/-- Overflow happens exactly where it has to: selections and removals do not overflow, what builds a
bag overflows if a count of the result exceeds what a counter can hold, and a size overflows if the
sum of the counts does. None of this depends on the order in which entries or values are visited. -/
theorem overflows_exactly [EquivBEq α] {a b left right : Bag α} (reachedA : Reachable a)
    (reachedB : Reachable b) (rearrangedA : left.entries.Perm a.entries)
    (rearrangedB : right.entries.Perm b.entries) : OverflowLaws a b left right := by
  have wellFormedA := reachedA.wellFormed
  have wellFormedB := reachedB.wellFormed
  have wellFormedLeft := wellFormedA.perm rearrangedA
  have wellFormedRight := wellFormedB.perm rearrangedB
  have countLeft := count_eq_of_perm rearrangedA wellFormedA
  have countRight := count_eq_of_perm rearrangedB wellFormedB
  have totalLeft : left.total = a.total := by
    rw [← length_toList, ← length_toList, (toList_perm rearrangedA).length_eq]
  have totalRight : right.total = b.total := by
    rw [← length_toList, ← length_toList, (toList_perm rearrangedB).length_eq]
  have insertAll (values rearranged : List α) (sameValues : rearranged.Perm values) :
      OverflowsIff (left.insertAll rearranged)
        (∃ value, countLimit < a.count value + values.count value) := by
    have overflows := overflowsIff_insertAll wellFormedLeft rearranged
    simpa only [countLeft, sameValues.count_eq] using overflows
  exact
    { selects := fun operation => exists_combine_of_selects wellFormedLeft wellFormedRight
      filter := exists_filter wellFormedLeft
      remove := fun value other => (count_remove_add wellFormedLeft value other).trans (countLeft _)
      removeAll := fun value other =>
        (count_removeAll_add wellFormedLeft value other).trans (countLeft _)
      insertMany := fun value n => by
        rw [← countLeft]
        exact overflowsIff_insertMany wellFormedLeft value n
      insertAll := insertAll
      addList := insertAll
      ofList := fun values rearranged sameValues => by
        simpa only [sameValues.count_eq] using overflowsIff_ofList rearranged
      adds := fun operation adds => by
        have overflows := overflowsIff_combine wellFormedLeft wellFormedRight adds
        simpa only [countLeft, countRight] using overflows
      map := fun f => by
        have images := (toList_perm rearrangedA).map f
        simpa only [images.count_eq] using overflowsIff_map f left
      flatMap := fun f => by
        have images := (toList_perm rearrangedA).flatMap_right f
        simpa only [images.count_eq] using overflowsIff_flatMap f left
      size := by
        rw [← totalLeft]
        exact overflowsIff_size left
      pairsUnder := fun related => by
        rw [← totalLeft, ← totalRight]
        exact overflowsIff_pairsUnder related left right }

/-- One more `1` than a counter can hold overflows. What the larger bag has beyond the other does
not. -/
theorem overflows_exactly_limit :
    (⟨[(1, countLimit)]⟩ : Bag Int).union ⟨[(1, 1)]⟩ = .error .countOverflow ∧
      ∃ result, (⟨[(1, countLimit)]⟩ : Bag Int).difference ⟨[(1, 1)]⟩ = .ok result := by
  have full : (∅ : Bag Int).insertMany 1 countLimit = .ok ⟨[(1, countLimit)]⟩ := rfl
  have single : Bag.ofList [1] = Except.ok (⟨[(1, 1)]⟩ : Bag Int) := rfl
  have laws := overflows_exactly (.insertMany .empty full) (.ofList single)
    (List.Perm.refl _) (List.Perm.refl _)
  exact ⟨(laws.adds .union rfl).1 ⟨1, by decide⟩, laws.selects .difference rfl⟩

end RootFinding.Bag
