import Mathlib
import RootFinding.Bag.Algebra
import RootFinding.Bag.Pending
import RootFinding.Proofs.Outcome

/-!
# What insertion does to a bag

Every operation that builds a bag inserts entries in turn, so one account of `insertEntry` carries
over to all of them.

- The total grows by the inserted counts, whatever `==` says of the values: a value that is not
  equal to itself gets an entry of its own, and one that is merged adds to a count.
- An insertion whose total fits a counter does not fail.
- Where `==` is equality, the elements are those before together with the inserted ones.
-/

namespace RootFinding.Bag

open Outcome

variable {α β : Type} [BEq α] [BEq β]

omit [BEq α] in
/-- The empty bag has no elements. -/
@[simp] theorem total_empty : (∅ : Bag α).total = 0 := rfl

omit [BEq α] in
/-- The empty bag yields no elements. -/
@[simp] theorem toList_empty : (∅ : Bag α).toList = [] :=
  toList_eq ∅

omit [BEq α] in
/-- As many elements are walked as the counts add up to. -/
@[simp] theorem length_toList (bag : Bag α) : bag.toList.length = bag.total := by
  rw [toList_eq, length_expand, total]

omit [BEq α] in
/-- A table in another order has the same elements. -/
theorem toList_perm {bag other : Bag α} (rearranged : other.entries.Perm bag.entries) :
    other.toList.Perm bag.toList := by
  rw [toList_eq, toList_eq]
  exact rearranged.flatMap_right _

omit [BEq α] in
/-- In whatever order a table is walked, it has the same elements. -/
theorem toList_arranged (bag : Bag α) (order : TableOrder α) :
    (bag.arranged order).toList.Perm bag.toList :=
  toList_perm (order.perm bag.entries)

omit [BEq α] in
/-- In whatever order a table is walked, it has as many elements. -/
@[simp] theorem total_arranged (bag : Bag α) (order : TableOrder α) :
    (bag.arranged order).total = bag.total := by
  rw [← length_toList, ← length_toList, (toList_arranged bag order).length_eq]

/-- Counters whose sum fits one are added. -/
theorem addCounts_of_le {m n : Nat} (fits : m + n ≤ countLimit) : addCounts m n = .ok (m + n) :=
  if_pos fits

/-- Counters are added exactly if their sum fits one. -/
theorem addCounts_eq_ok_iff {m n sum : Nat} :
    addCounts m n = .ok sum ↔ m + n ≤ countLimit ∧ sum = m + n := by
  unfold addCounts
  split
  · next fits => simp [fits, eq_comm]
  · next overflows => simp [overflows]

section Raising

/-- What raising a count does to a table: the first entry of the value has the sum, and a value
without an entry gets one at the end. -/
inductive Raised (value : α) (n : Nat) : List (α × Nat) → List (α × Nat) → Prop where
  | new (fits : 0 + n ≤ countLimit) : Raised value n [] [(value, 0 + n)]
  | here {stored : α} {m : Nat} {rest : List (α × Nat)} (same : (stored == value) = true)
      (fits : m + n ≤ countLimit) : Raised value n ((stored, m) :: rest) ((stored, m + n) :: rest)
  | later {stored : α} {m : Nat} {rest after : List (α × Nat)} (other : (stored == value) = false)
      (raised : Raised value n rest after) :
      Raised value n ((stored, m) :: rest) ((stored, m) :: after)

/-- Raising a count finishes where the sum fits a counter, with the table that it should have. -/
theorem insertEntry_eq_ok_iff {value : α} {n : Nat} {entries result : List (α × Nat)} :
    insertEntry value n entries = .ok result ↔ Raised value n entries result := by
  constructor
  · intro inserted
    induction entries generalizing result with
    | nil =>
        simp only [insertEntry, bind_eq_ok, pure_eq_ok, Except.ok.injEq] at inserted
        obtain ⟨count, added, rfl⟩ := inserted
        obtain ⟨fits, rfl⟩ := addCounts_eq_ok_iff.mp added
        exact .new fits
    | cons entry rest inductionHypothesis =>
        rw [insertEntry] at inserted
        split at inserted
        · next same =>
          simp only [bind_eq_ok, pure_eq_ok, Except.ok.injEq] at inserted
          obtain ⟨count, added, rfl⟩ := inserted
          obtain ⟨fits, rfl⟩ := addCounts_eq_ok_iff.mp added
          exact .here same fits
        · next other =>
          simp only [bind_eq_ok, pure_eq_ok, Except.ok.injEq] at inserted
          obtain ⟨after, insertedAfter, rfl⟩ := inserted
          exact .later (Bool.eq_false_iff.mpr other) (inductionHypothesis insertedAfter)
  · intro raised
    induction raised with
    | new fits =>
        rw [insertEntry, addCounts_of_le fits]
        rfl
    | here same fits =>
        rw [insertEntry, if_pos same, addCounts_of_le fits]
        rfl
    | later other _ inductionHypothesis =>
        rw [insertEntry, if_neg (Bool.eq_false_iff.mp other), inductionHypothesis]
        rfl

/-- Occurrences that are inserted are none, or raise the count of their value. -/
theorem raised_of_insertMany {bag result : Bag α} {value : α} {n : Nat}
    (inserted : bag.insertMany value n = .ok result) :
    n = 0 ∧ result = bag ∨ 0 < n ∧ Raised value n bag.entries result.entries := by
  unfold insertMany at inserted
  split at inserted
  · next none => exact Or.inl ⟨none, (Except.ok.inj inserted).symm⟩
  · next some =>
    simp only [bind_eq_ok, pure_eq_ok, Except.ok.injEq] at inserted
    obtain ⟨entries, insertedEntry, rfl⟩ := inserted
    exact Or.inr ⟨Nat.pos_of_ne_zero some, insertEntry_eq_ok_iff.mp insertedEntry⟩

end Raising

section Repetition

/-- A sum is added to a counter one summand at a time. -/
theorem addCounts_add (count m n : Nat) :
    addCounts count (m + n) = addCounts count m >>= fun sum => addCounts sum n := by
  unfold addCounts
  by_cases fits : count + m ≤ countLimit
  · rw [if_pos fits, ok_bind, Nat.add_assoc]
  · have exceeds : ¬count + (m + n) ≤ countLimit := by omega
    rw [if_neg fits, if_neg exceeds, error_bind]

/-- A count is raised by a sum one summand at a time, where the value finds its own entry again. -/
theorem insertEntry_add {value : α} (reflexive : (value == value) = true) (m n : Nat)
    (entries : List (α × Nat)) :
    insertEntry value (m + n) entries =
      insertEntry value m entries >>= insertEntry value n := by
  induction entries with
  | nil =>
      rw [insertEntry, insertEntry, addCounts_add, bind_assoc, bind_assoc]
      congr 1
      funext sum
      simp [insertEntry, reflexive]
  | cons entry rest inductionHypothesis =>
      obtain ⟨stored, count⟩ := entry
      rw [insertEntry, insertEntry]
      split
      · next same =>
        rw [addCounts_add, bind_assoc, bind_assoc]
        congr 1
        funext sum
        simp [insertEntry, same]
      · next other =>
        rw [inductionHypothesis, bind_assoc, bind_assoc]
        congr 1
        funext after
        simp [insertEntry, other]

/-- Inserting a value again and again is inserting its occurrences at once. -/
theorem insertAll_replicate {value : α} (reflexive : (value == value) = true) (bag : Bag α)
    (n : Nat) : bag.insertAll (List.replicate n value) = bag.insertMany value n := by
  induction n generalizing bag with
  | zero => rfl
  | succ n inductionHypothesis =>
      have restAtOnce : (fun middle : Bag α => middle.insertAll (List.replicate n value)) =
          fun middle => middle.insertMany value n := funext inductionHypothesis
      rw [List.replicate_succ, insertAll, List.foldlM_cons]
      change (bag.insertMany value 1 >>= fun middle =>
        middle.insertAll (List.replicate n value)) = _
      rw [restAtOnce]
      by_cases single : n = 0
      · subst single
        simp [insertMany]
      · have several : 1 + n ≠ 0 := by omega
        simp only [insertMany, Nat.add_comm n 1, if_neg single, if_neg several,
          if_neg Nat.one_ne_zero, bind_assoc, pure_bind, insertEntry_add reflexive]

/-- Inserting two lists one after the other is inserting both. -/
theorem insertAll_append (bag : Bag α) (values others : List α) :
    bag.insertAll (values ++ others) =
      bag.insertAll values >>= fun middle => middle.insertAll others :=
  List.foldlM_append

/-- Inserting the occurrences of entries one by one is inserting the entries. -/
theorem insertAll_expand [ReflBEq α] (bag : Bag α) (entries : List (α × Nat)) :
    bag.insertAll (expand entries) = bag.insertEntries entries := by
  induction entries generalizing bag with
  | nil => rfl
  | cons entry rest inductionHypothesis =>
      rw [expand_cons, insertAll_append, insertAll_replicate BEq.rfl, insertEntries,
        List.foldlM_cons]
      exact congrArg _ (funext inductionHypothesis)

/-- The occurrences of entries make the bag that the entries make. -/
theorem ofList_expand [ReflBEq α] (entries : List (α × Nat)) :
    ofList (expand entries) = ofEntries entries :=
  insertAll_expand ∅ entries

end Repetition

section Totals

/-- Raising one count raises the sum by as much. -/
theorem Raised.weight_eq {value : α} {n : Nat} {entries result : List (α × Nat)}
    (raised : Raised value n entries result) : weight result = weight entries + n := by
  induction raised with
  | new fits => simp
  | here same fits => simp only [weight_cons]; omega
  | later other _ inductionHypothesis => simp only [weight_cons, inductionHypothesis]; omega

/-- A count can be raised where the sum of all counts would still fit a counter. -/
theorem exists_insertEntry (value : α) {n : Nat} {entries : List (α × Nat)}
    (fits : weight entries + n ≤ countLimit) :
    ∃ result, insertEntry value n entries = .ok result := by
  induction entries with
  | nil =>
      refine ⟨[(value, 0 + n)], ?_⟩
      rw [insertEntry, addCounts_of_le (by simpa using fits)]
      rfl
  | cons entry rest inductionHypothesis =>
      rw [weight_cons] at fits
      rw [insertEntry]
      split
      · rw [addCounts_of_le (by omega)]
        exact ⟨_, rfl⟩
      · obtain ⟨after, inserted⟩ := inductionHypothesis (by omega)
        rw [inserted]
        exact ⟨_, rfl⟩

/-- Occurrences of a value add to the total. -/
theorem total_insertMany {bag result : Bag α} {value : α} {n : Nat}
    (inserted : bag.insertMany value n = .ok result) : result.total = bag.total + n := by
  rcases raised_of_insertMany inserted with ⟨rfl, rfl⟩ | ⟨_, raised⟩
  · rfl
  · exact raised.weight_eq

/-- Occurrences can be added where the total would still fit a counter. -/
theorem exists_insertMany (bag : Bag α) (value : α) {n : Nat} (fits : bag.total + n ≤ countLimit) :
    ∃ result, bag.insertMany value n = .ok result := by
  unfold insertMany
  split
  · exact ⟨bag, rfl⟩
  · obtain ⟨entries, inserted⟩ := exists_insertEntry value fits
    rw [inserted]
    exact ⟨⟨entries⟩, rfl⟩

/-- A list of entries adds the sum of its counts to the total. -/
theorem total_insertEntries {bag result : Bag α} {entries : List (α × Nat)}
    (inserted : bag.insertEntries entries = .ok result) :
    result.total = bag.total + weight entries := by
  induction entries generalizing bag with
  | nil =>
      obtain rfl := Except.ok.inj inserted
      rfl
  | cons entry rest inductionHypothesis =>
      rw [insertEntries, List.foldlM_cons, bind_eq_ok] at inserted
      obtain ⟨middle, first, others⟩ := inserted
      rw [inductionHypothesis others, total_insertMany first, weight_cons, Nat.add_assoc]

/-- A list of entries can be added where the total would still fit a counter. -/
theorem exists_insertEntries (bag : Bag α) {entries : List (α × Nat)}
    (fits : bag.total + weight entries ≤ countLimit) :
    ∃ result, bag.insertEntries entries = .ok result := by
  induction entries generalizing bag with
  | nil => exact ⟨bag, rfl⟩
  | cons entry rest inductionHypothesis =>
      rw [weight_cons] at fits
      obtain ⟨middle, first⟩ := exists_insertMany bag entry.1 (n := entry.2) (by omega)
      have middleTotal := total_insertMany first
      obtain ⟨result, others⟩ := inductionHypothesis middle (by omega)
      exact ⟨result, by rw [insertEntries, List.foldlM_cons, first]; exact others⟩

/-- Inserting values one by one is inserting each with a count of one. -/
theorem insertAll_eq_insertEntries (bag : Bag α) (values : List α) :
    bag.insertAll values = bag.insertEntries (values.map fun value => (value, 1)) := by
  rw [insertAll, insertEntries, List.foldlM_map]
  rfl

omit [BEq α] in
/-- The counts of two tables add up. -/
theorem weight_append (front back : List (α × Nat)) :
    weight (front ++ back) = weight front + weight back := by
  induction front with
  | nil => simp
  | cons entry rest inductionHypothesis =>
      simp [inductionHypothesis, Nat.add_assoc]

omit [BEq α] in
/-- Values that all have one count weigh it once for each of them. -/
theorem weight_map_count (values : List α) (n : Nat) :
    weight (values.map fun value => (value, n)) = values.length * n := by
  induction values with
  | nil => simp
  | cons value rest inductionHypothesis =>
      simp [inductionHypothesis, Nat.add_one_mul, Nat.add_comm]

/-- A list adds as many elements as it is long. -/
theorem total_insertAll {bag result : Bag α} {values : List α}
    (inserted : bag.insertAll values = .ok result) :
    result.total = bag.total + values.length := by
  rw [insertAll_eq_insertEntries] at inserted
  rw [total_insertEntries inserted, weight_map_count, Nat.mul_one]

/-- A list can be inserted where the total would still fit a counter. -/
theorem exists_insertAll (bag : Bag α) {values : List α}
    (fits : bag.total + values.length ≤ countLimit) :
    ∃ result, bag.insertAll values = .ok result := by
  rw [insertAll_eq_insertEntries]
  exact exists_insertEntries bag (by rwa [weight_map_count, Nat.mul_one])

/-- The bag of a list has as many elements as the list. -/
theorem total_ofList {values : List α} {bag : Bag α} (built : ofList values = .ok bag) :
    bag.total = values.length := by
  rw [total_insertAll built, total_empty, Nat.zero_add]

/-- A list whose length fits a counter has a bag. -/
theorem exists_ofList {values : List α} (fits : values.length ≤ countLimit) :
    ∃ bag : Bag α, ofList values = .ok bag :=
  exists_insertAll ∅ (by rwa [total_empty, Nat.zero_add])

/-- The entries that images are collected from. -/
def imageEntries (f : α → List β) (entries : List (α × Nat)) : List (β × Nat) :=
  entries.flatMap fun entry => (f entry.1).map fun image => (image, entry.2)

omit [BEq α] [BEq β] in
/-- The images of an entry are as many as it has occurrences, each time the value's number of
images. -/
theorem weight_imageEntries (f : α → List β) (entries : List (α × Nat)) :
    weight (imageEntries f entries) =
      (entries.map fun entry => entry.2 * (f entry.1).length).sum := by
  induction entries with
  | nil => rfl
  | cons entry rest inductionHypothesis =>
      have split : weight (imageEntries f (entry :: rest)) =
          weight ((f entry.1).map fun image => (image, entry.2)) +
            weight (imageEntries f rest) :=
        weight_append _ _
      rw [split, weight_map_count, inductionHypothesis, List.map_cons, List.sum_cons, Nat.mul_comm]

omit [BEq α] [BEq β] in
/-- Images of one length multiply the number of elements by it. -/
theorem weight_imageEntries_of_length {f : α → List β} {size : Nat}
    (sized : ∀ value, (f value).length = size) (entries : List (α × Nat)) :
    weight (imageEntries f entries) = size * weight entries := by
  rw [weight_imageEntries]
  induction entries with
  | nil => rfl
  | cons entry rest inductionHypothesis =>
      rw [List.map_cons, List.sum_cons, inductionHypothesis, sized, weight_cons, Nat.mul_add,
        Nat.mul_comm entry.2]

omit [BEq α] in
/-- Images of one length multiply the total by it. -/
theorem total_flatMap {f : α → List β} {size : Nat} (sized : ∀ value, (f value).length = size)
    {bag : Bag α} {result : Bag β} (built : bag.flatMap f = .ok result) :
    result.total = size * bag.total := by
  have counted := total_insertEntries built
  rw [total_empty, Nat.zero_add] at counted
  rw [counted]
  exact weight_imageEntries_of_length sized bag.entries

omit [BEq α] in
/-- Images can be collected where their total fits a counter. -/
theorem exists_flatMap {f : α → List β} {size : Nat} (sized : ∀ value, (f value).length = size)
    {bag : Bag α} (fits : size * bag.total ≤ countLimit) :
    ∃ result : Bag β, bag.flatMap f = .ok result := by
  refine exists_insertEntries ∅ ?_
  rw [total_empty, Nat.zero_add]
  calc weight (imageEntries f bag.entries)
      = size * weight bag.entries := weight_imageEntries_of_length sized bag.entries
    _ ≤ countLimit := fits

end Totals

section Faults

/-- Adding counters only fails for want of room. -/
theorem eq_countOverflow_of_addCounts {m n : Nat} {cause : Fault}
    (failed : addCounts m n = .error cause) : cause = .countOverflow := by
  unfold addCounts at failed
  split at failed
  · cases failed
  · exact (Except.error.inj failed).symm

/-- Raising a count fails for want of room and for no other cause. -/
theorem eq_countOverflow_of_insertEntry {value : α} {n : Nat} {entries : List (α × Nat)}
    {cause : Fault} (failed : insertEntry value n entries = .error cause) :
    cause = .countOverflow := by
  induction entries with
  | nil =>
      simp only [insertEntry, bind_eq_error, pure_eq_ok, reduceCtorEq, and_false, exists_false,
        or_false] at failed
      exact eq_countOverflow_of_addCounts failed
  | cons entry rest inductionHypothesis =>
      rw [insertEntry] at failed
      split at failed
      · simp only [bind_eq_error, pure_eq_ok, reduceCtorEq, and_false, exists_false,
          or_false] at failed
        exact eq_countOverflow_of_addCounts failed
      · simp only [bind_eq_error, pure_eq_ok, reduceCtorEq, and_false, exists_false,
          or_false] at failed
        exact inductionHypothesis failed

/-- Inserting copies of a value only fails for want of room. -/
theorem eq_countOverflow_of_insertMany {bag : Bag α} {value : α} {n : Nat} {cause : Fault}
    (failed : bag.insertMany value n = .error cause) : cause = .countOverflow := by
  unfold insertMany at failed
  split at failed
  · cases failed
  · simp only [bind_eq_error, pure_eq_ok, reduceCtorEq, and_false, exists_false, or_false] at failed
    exact eq_countOverflow_of_insertEntry failed

/-- Inserting entries fails for want of room and for no other cause. -/
theorem eq_countOverflow_of_insertEntries {bag : Bag α} {entries : List (α × Nat)} {cause : Fault}
    (failed : bag.insertEntries entries = .error cause) : cause = .countOverflow := by
  induction entries generalizing bag with
  | nil => cases failed
  | cons entry rest inductionHypothesis =>
      rw [insertEntries, List.foldlM_cons, bind_eq_error] at failed
      rcases failed with first | ⟨middle, _, others⟩
      · exact eq_countOverflow_of_insertMany first
      · exact inductionHypothesis others

/-- Inserting a list of values only fails for want of room. -/
theorem eq_countOverflow_of_insertAll {bag : Bag α} {values : List α} {cause : Fault}
    (failed : bag.insertAll values = .error cause) : cause = .countOverflow := by
  rw [insertAll_eq_insertEntries] at failed
  exact eq_countOverflow_of_insertEntries failed

end Faults

section Elements

variable [LawfulBEq α] [LawfulBEq β]

omit [BEq α] [LawfulBEq α] in
/-- Entries one after the other hold their elements one after the other. -/
@[simp] theorem expand_append (entries others : List (α × Nat)) :
    expand (entries ++ others) = expand entries ++ expand others := by
  simp [expand]

/-- Raising a count adds occurrences of the value and of nothing else. -/
theorem Raised.expand_perm {value : α} {n : Nat} {entries result : List (α × Nat)}
    (raised : Raised value n entries result) :
    (expand result).Perm (List.replicate n value ++ expand entries) := by
  induction raised with
  | new fits => simp
  | @here stored m rest same fits =>
      obtain rfl := eq_of_beq same
      rw [expand_cons, expand_cons, Nat.add_comm m n, ← List.append_assoc,
        List.replicate_append_replicate]
  | later other _ inductionHypothesis =>
      rw [expand_cons, expand_cons]
      refine (inductionHypothesis.append_left _).trans ?_
      rw [← List.append_assoc, ← List.append_assoc]
      exact List.perm_append_comm.append_right _

/-- Inserted occurrences come to the elements that were there. -/
theorem toList_insertMany {bag result : Bag α} {value : α} {n : Nat}
    (inserted : bag.insertMany value n = .ok result) :
    result.toList.Perm (List.replicate n value ++ bag.toList) := by
  rcases raised_of_insertMany inserted with ⟨rfl, rfl⟩ | ⟨_, raised⟩
  · exact List.Perm.refl _
  · rw [toList_eq, toList_eq]
    exact raised.expand_perm

/-- Inserted entries come to the elements that were there. -/
theorem toList_insertEntries {bag result : Bag α} {entries : List (α × Nat)}
    (inserted : bag.insertEntries entries = .ok result) :
    result.toList.Perm (expand entries ++ bag.toList) := by
  induction entries generalizing bag with
  | nil =>
      obtain rfl := Except.ok.inj inserted
      simp
  | cons entry rest inductionHypothesis =>
      rw [insertEntries, List.foldlM_cons, bind_eq_ok] at inserted
      obtain ⟨middle, first, others⟩ := inserted
      refine (inductionHypothesis others).trans ?_
      rw [expand_cons]
      refine ((toList_insertMany first).append_left _).trans ?_
      rw [← List.append_assoc]
      exact List.perm_append_comm.append_right _

omit [BEq α] [LawfulBEq α] in
/-- A table in which every value is counted once yields the values. -/
theorem expand_map_one (values : List α) :
    expand (values.map fun value => (value, 1)) = values := by
  induction values with
  | nil => rfl
  | cons value rest inductionHypothesis => simp [inductionHypothesis]

/-- The elements of the bag of a list are those of the list. -/
theorem toList_ofList {values : List α} {bag : Bag α} (built : ofList values = .ok bag) :
    bag.toList.Perm values := by
  rw [ofList, insertAll_eq_insertEntries] at built
  have elements := toList_insertEntries built
  rw [expand_map_one, toList_empty, List.append_nil] at elements
  exact elements

omit [BEq α] [LawfulBEq α] in
/-- Repeating each value of a list is repeating the list, up to order. -/
theorem expand_map_count (values : List α) (n : Nat) :
    (expand (values.map fun value => (value, n))).Perm (List.replicate n values).flatten := by
  simp only [expand, List.flatMap_map]
  induction n with
  | zero => simp
  | succ n inductionHypothesis =>
      have separated := (List.flatMap_append_perm values (fun value => [value])
        fun value => List.replicate n value).symm
      have unchanged : values.flatMap (fun value => [value]) = values := by simp
      rw [unchanged] at separated
      rw [List.replicate_succ, List.flatten_cons]
      exact separated.trans (inductionHypothesis.append_left values)

omit [BEq α] [BEq β] [LawfulBEq α] [LawfulBEq β] in
/-- The entries of images hold the images of the elements. -/
theorem expand_imageEntries (f : α → List β) (entries : List (α × Nat)) :
    (expand (imageEntries f entries)).Perm ((expand entries).flatMap f) := by
  induction entries with
  | nil => simp [imageEntries]
  | cons entry rest inductionHypothesis =>
      have here : (expand ((f entry.1).map fun image => (image, entry.2))).Perm
          ((List.replicate entry.2 entry.1).flatMap f) := by
        have images : (List.replicate entry.2 entry.1).flatMap f =
            (List.replicate entry.2 (f entry.1)).flatten := by
          rw [List.flatMap_def, List.map_replicate]
        rw [images]
        exact expand_map_count (f entry.1) entry.2
      have split : imageEntries f (entry :: rest) =
          ((f entry.1).map fun image => (image, entry.2)) ++ imageEntries f rest := by
        simp [imageEntries]
      rw [split, expand_append, expand_cons, List.flatMap_append]
      exact here.append inductionHypothesis

omit [BEq α] [LawfulBEq α] in
/-- The elements of the images of a bag are the images of its elements. -/
theorem toList_flatMap {f : α → List β} {bag : Bag α} {result : Bag β}
    (built : bag.flatMap f = .ok result) : result.toList.Perm (bag.toList.flatMap f) := by
  have elements := toList_insertEntries built
  rw [toList_empty, List.append_nil] at elements
  rw [toList_eq bag]
  exact elements.trans (expand_imageEntries f bag.entries)

end Elements

end RootFinding.Bag
