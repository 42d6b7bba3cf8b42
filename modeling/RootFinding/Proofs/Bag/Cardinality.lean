import RootFinding.Proofs.Bag.Reachable
import RootFinding.Proofs.SignedZero

/-!
# No element is lost

An operation may merge values into one entry, or give each occurrence of a value an entry of its
own because the value is not equal to itself. Either way the counts that it stores add up to the
counts that it was given, so that sizes can be computed without knowing which of the two happened.

The laws are equations of checked computations: where the exact sum fits a counter, both sides give
it, and where it does not, both sides overflow. Equality of values only has to be symmetric and
transitive. It has to be reflexive where a bag is split by what it has in common with another.
-/

namespace RootFinding.Bag

open Outcome

variable {α β : Type} [BEq α] [BEq β]

/-- A number as a counter, where a counter can hold it. -/
def counter (n : Nat) : Except Fault Nat :=
  if n ≤ countLimit then .ok n else .error .countOverflow

section Counters

omit [BEq α] in
/-- The size is the total, where a counter can hold it. -/
theorem size_eq_counter (bag : Bag α) : bag.size = counter bag.total := size_eq bag

/-- The sum of two counters is one where a counter can hold it. -/
theorem addCounts_eq_counter (m n : Nat) : addCounts m n = counter (m + n) := rfl

/-- Counters are added where their sum is one. -/
theorem addCounts_counter (m n : Nat) :
    (do addCounts (← counter m) (← counter n)) = counter (m + n) := by
  have tooLarge (large : ¬(m ≤ countLimit ∧ n ≤ countLimit)) :
      counter (m + n) = .error .countOverflow := if_neg (by omega)
  by_cases fitsM : m ≤ countLimit
  · by_cases fitsN : n ≤ countLimit
    · rw [counter, if_pos fitsM, ok_bind, counter, if_pos fitsN, ok_bind, addCounts_eq_counter]
    · rw [tooLarge fun both => fitsN both.2, counter, if_pos fitsM, ok_bind, counter, if_neg fitsN,
        error_bind]
  · rw [tooLarge fun both => fitsM both.1, counter, if_neg fitsM, error_bind]

omit [BEq α] in
/-- The sizes of two results add up to the sum of their totals. -/
theorem size_add_size {first second : Except Fault (Bag α)} {a b : Bag α} (givesA : first = .ok a)
    (givesB : second = .ok b) :
    (do addCounts (← (← first).size) (← (← second).size)) = counter (a.total + b.total) := by
  simp only [givesA, givesB, ok_bind, size_eq_counter]
  exact addCounts_counter a.total b.total

omit [BEq α] in
/-- A computation whose results have one total, and which only overflows where that total does, has
the total as its size. -/
theorem size_bind {computation : Except Fault (Bag α)} {n : Nat}
    (onlyOverflow : ∀ cause, computation = .error cause → cause = .countOverflow)
    (finishes : n ≤ countLimit → ∃ result, computation = .ok result)
    (counted : ∀ result, computation = .ok result → result.total = n) :
    (computation >>= size) = counter n := by
  cases outcome : computation with
  | ok result => rw [ok_bind, size_eq_counter, counted result outcome]
  | error cause =>
      have tooLarge : ¬n ≤ countLimit := fun fits => by
        obtain ⟨result, finished⟩ := finishes fits
        cases outcome.symm.trans finished
      rw [error_bind, onlyOverflow cause outcome, counter, if_neg tooLarge]

end Counters

section Building

/-- Inserted entries add their counts to the size. -/
theorem size_insertEntries (bag : Bag α) (entries : List (α × Nat)) :
    (bag.insertEntries entries >>= size) = counter (bag.total + weight entries) :=
  size_bind (fun _ => eq_countOverflow_of_insertEntries) (exists_insertEntries bag)
    fun _ => total_insertEntries

/-- A bag from entries has the sum of their counts as its size. -/
theorem size_ofEntries (entries : List (α × Nat)) :
    (ofEntries entries >>= size) = counter (weight entries) := by
  rw [ofEntries, size_insertEntries, total_empty, Nat.zero_add]

/-- A union has the elements of both bags. -/
theorem size_union (a b : Bag α) :
    (do (← a.union b).size) = (do addCounts (← a.size) (← b.size)) := by
  rw [union, size_insertEntries, size_eq_counter, size_eq_counter, addCounts_counter]
  rfl

omit [BEq α] [BEq β] in
/-- Changing the values of entries leaves their counts. -/
theorem weight_map (f : α → β) (entries : List (α × Nat)) :
    weight (entries.map fun entry => (f entry.1, entry.2)) = weight entries := by
  rw [← length_expand, expand_map, List.length_map, length_expand]

omit [BEq α] in
/-- Images are as many as the elements, whichever of them are equal. -/
theorem size_map (f : α → β) (bag : Bag α) : (do (← bag.map f).size) = bag.size := by
  rw [map, size_ofEntries, size_eq_counter]
  exact congrArg counter (weight_map f bag.entries)

omit [BEq α] in
/-- A flat map has as many elements as the lists that the elements are taken to. -/
theorem size_flatMap (f : α → List β) (bag : Bag α) :
    (do (← bag.flatMap f).size) =
      counter (bag.entries.map fun entry => entry.2 * (f entry.1).length).sum := by
  rw [← weight_imageEntries]
  exact size_ofEntries (imageEntries f bag.entries)

omit [BEq α] in
/-- The entries that pass a test and those that do not are all entries. -/
theorem weight_filter_add (p : α → Bool) (entries : List (α × Nat)) :
    weight (entries.filter fun entry => p entry.1) +
      weight (entries.filter fun entry => !p entry.1) = weight entries := by
  induction entries with
  | nil => rfl
  | cons entry rest inductionHypothesis =>
      rw [weight_cons, ← inductionHypothesis]
      cases passes : p entry.1 with
      | true => simp [passes]; omega
      | false => simp [passes]; omega

/-- Elements pass a test or they do not. -/
theorem size_filter_add {bag : Bag α} (wellFormed : WellFormed bag.entries) (p : α → Bool) :
    (do addCounts (← (← bag.filter p).size) (← (← bag.filter fun value => !p value).size)) =
      bag.size := by
  rw [size_add_size (filter_of_wellFormed wellFormed _) (filter_of_wellFormed wellFormed _),
    size_eq_counter]
  exact congrArg counter (weight_filter_add p bag.entries)

end Building

/-- An insertion: of one occurrence of a value, of several, or of each value of a list. -/
inductive Insertion (α : Type) where
  | one (value : α)
  | many (value : α) (n : Nat)
  | each (values : List α)

namespace Insertion

/-- Insert into a bag. -/
def apply : Insertion α → Bag α → Except Fault (Bag α)
  | one value, bag => bag.insert value
  | many value n, bag => bag.insertMany value n
  | each values, bag => bag.insertAll values

omit [BEq α] in
/-- How many elements are inserted. -/
def amount : Insertion α → Nat
  | one _ => 1
  | many _ n => n
  | each values => values.length

omit [BEq α] in
/-- What is inserted, as entries. -/
def entries : Insertion α → List (α × Nat)
  | one value => [(value, 1)]
  | many value n => [(value, n)]
  | each values => values.map fun value => (value, 1)

/-- Every insertion is one of entries. -/
theorem apply_eq (insertion : Insertion α) (bag : Bag α) :
    insertion.apply bag = bag.insertEntries insertion.entries := by
  cases insertion with
  | one value => exact (bind_pure (bag.insert value)).symm
  | many value n => exact (bind_pure (bag.insertMany value n)).symm
  | each values => exact insertAll_eq_insertEntries bag values

omit [BEq α] in
/-- The counts of the entries are the amount of the insertion. -/
theorem weight_entries (insertion : Insertion α) : weight insertion.entries = insertion.amount := by
  cases insertion with
  | one value => rfl
  | many value n => rfl
  | each values => exact (weight_map_count values 1).trans (Nat.mul_one _)

/-- Insert in turn. -/
def run (insertions : List (Insertion α)) (bag : Bag α) : Except Fault (Bag α) :=
  insertions.foldlM (fun bag insertion => insertion.apply bag) bag

/-- Insertions in turn are one of all their entries. -/
theorem run_eq (insertions : List (Insertion α)) (bag : Bag α) :
    run insertions bag = bag.insertEntries (insertions.flatMap entries) := by
  induction insertions generalizing bag with
  | nil => rfl
  | cons insertion rest inductionHypothesis =>
      rw [run, List.foldlM_cons, apply_eq, List.flatMap_cons, insertEntries, insertEntries,
        List.foldlM_append]
      exact congrArg _ (funext inductionHypothesis)

/-- A run of insertions adds what each of them inserts. -/
theorem size_run (insertions : List (Insertion α)) (bag : Bag α) :
    (run insertions bag >>= size) = counter (bag.total + (insertions.map amount).sum) := by
  have inserted : weight (insertions.flatMap entries) = (insertions.map amount).sum := by
    induction insertions with
    | nil => rfl
    | cons insertion rest inductionHypothesis =>
        rw [List.flatMap_cons, weight_append, weight_entries, inductionHypothesis, List.map_cons,
          List.sum_cons]
  rw [run_eq, size_insertEntries, inserted]

end Insertion

section Unequal

variable [PartialEquivBEq α]

/-- Nothing in a bag is equal to a value that is not equal to itself. -/
theorem missing_of_ne_self {value : α} (unequal : (value == value) = false)
    (entries : List (α × Nat)) : ∀ entry ∈ entries, (entry.1 == value) = false := by
  intro entry _
  by_contra found
  have same : (entry.1 == value) = true := by simpa using found
  rw [BEq.trans (BEq.symm same) same] at unequal
  cases unequal

/-- A value that is not equal to itself is in no bag. -/
theorem contains_of_ne_self {value : α} (unequal : (value == value) = false) (bag : Bag α) :
    bag.contains value = false := by
  have missing := missing_of_ne_self unequal bag.entries
  rw [contains, List.any_eq_false]
  exact fun entry member => by simp [missing entry member]

/-- A value that is not equal to itself cannot be removed. -/
theorem remove_of_ne_self {value : α} (unequal : (value == value) = false) (bag : Bag α) :
    bag.remove value = (bag, false) := by
  have absent := contains_of_ne_self unequal bag
  rw [remove, removeEntry_eq_self absent, absent]

end Unequal

/-- What is in common with another bag and what is left without it are all elements. -/
theorem size_intersection_add_complement [EquivBEq α] {a b : Bag α}
    (wellFormedA : WellFormed a.entries) (wellFormedB : WellFormed b.entries) :
    (do addCounts (← (← a.intersection b).size) (← (← a.complement b).size)) = a.size := by
  obtain ⟨common, intersected⟩ := (gives_intersection wellFormedA wellFormedB).exists_ok
  obtain ⟨left, subtracted⟩ := (gives_complement wellFormedA b).exists_ok
  have commonElements : common.elements = a.elements ∩ b.elements :=
    elements_combine .intersection wellFormedA wellFormedB intersected
  have leftElements : left.elements = a.elements - b.elements :=
    elements_combine .complement wellFormedA wellFormedB subtracted
  have parts : common.total + left.total = a.total := by
    rw [← card_elements, ← card_elements, ← card_elements, commonElements, leftElements,
      ← Multiset.card_add, add_comm, Multiset.sub_add_inter]
  rw [size_add_size intersected subtracted, size_eq_counter, parts]

/-- The sizes that operations lead to. -/
structure SizeLaws [PartialEquivBEq α] (a b : Bag α) : Prop where
  /-- Insertions add what they insert, to nothing and to what is there. -/
  built : ∀ insertions : List (Insertion α),
    (do (← Insertion.run insertions ∅).size) = counter (insertions.map Insertion.amount).sum
  inserted : ∀ insertions : List (Insertion α),
    (do (← Insertion.run insertions a).size) =
      (do addCounts (← a.size) (← counter (insertions.map Insertion.amount).sum))
  union : (do (← a.union b).size) = (do addCounts (← a.size) (← b.size))
  map : ∀ {β : Type} [BEq β] (f : α → β), (do (← a.map f).size) = a.size
  flatMap : ∀ {β : Type} [BEq β] (f : α → List β), (do (← a.flatMap f).size) =
    counter (a.entries.map fun entry => entry.2 * (f entry.1).length).sum
  filter : ∀ p : α → Bool,
    (do addCounts (← (← a.filter p).size) (← (← a.filter fun value => !p value).size)) = a.size
  /-- A value that is not equal to itself is never found. -/
  unequal : ∀ value : α, (value == value) = false →
    a.count value = 0 ∧ a.contains value = false ∧ a.remove value = (a, false)
  parts : ∀ [ReflBEq α],
    (do addCounts (← (← a.intersection b).size) (← (← a.complement b).size)) = a.size

/-- No operation loses an element or makes one up, whether or not values are equal to themselves. -/
theorem size_conserved [PartialEquivBEq α] {a b : Bag α} (reachedA : Reachable a)
    (reachedB : Reachable b) : SizeLaws a b where
  built insertions := by
    rw [← Nat.zero_add (List.sum _)]
    exact Insertion.size_run insertions ∅
  inserted insertions := by
    rw [size_eq_counter, addCounts_counter]
    exact Insertion.size_run insertions a
  union := size_union a b
  map f := size_map f a
  flatMap f := size_flatMap f a
  filter := size_filter_add reachedA.wellFormed
  unequal value unequal :=
    ⟨countIn_eq_zero (missing_of_ne_self unequal a.entries), contains_of_ne_self unequal a,
      remove_of_ne_self unequal a⟩
  parts := by
    intro reflexive
    have : EquivBEq α := {}
    exact size_intersection_add_complement reachedA.wellFormed reachedB.wellFormed

/-- A point and two that are not numbers are three elements, of which the latter cannot be taken
out again. -/
theorem size_conserved_notNumbers :
    ∃ bag : Bag (Complex Float), Bag.ofList [⟨1, 0⟩, ⟨0 / 0, 0⟩, ⟨0 / 0, 0⟩] = .ok bag ∧
      bag.size = .ok 3 ∧ bag.remove ⟨0 / 0, 0⟩ = (bag, false) := by
  have unequal : ((⟨0 / 0, 0⟩ : Complex Float) == ⟨0 / 0, 0⟩) = false := by decide +kernel
  obtain ⟨bag, built⟩ : ∃ bag : Bag (Complex Float),
      Bag.ofList [⟨1, 0⟩, ⟨0 / 0, 0⟩, ⟨0 / 0, 0⟩] = .ok bag := exists_ofList (by decide)
  have laws := size_conserved (.ofList built) (.ofList built)
  refine ⟨bag, built, ?_, (laws.unequal _ unequal).2.2⟩
  have inserted := laws.built [.each [⟨1, 0⟩, ⟨0 / 0, 0⟩, ⟨0 / 0, 0⟩]]
  simp only [Insertion.run, List.foldlM_cons, List.foldlM_nil, bind_pure] at inserted
  change (Bag.ofList _ >>= size) = _ at inserted
  rw [built] at inserted
  exact inserted

end RootFinding.Bag
