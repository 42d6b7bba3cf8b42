import RootFinding.Proofs.Bag.Elements

/-!
# What the operations do to the multiset of a bag

Every operation on bags is one on multisets: sum, intersection, truncated difference, image and
selection of the elements. The operations look at entries and counts instead, some of them at one
operand only; the tables being well formed makes that the same.
-/

namespace RootFinding.Bag

open Outcome

variable {α β : Type} [BEq α] [BEq β]

section Elements

variable [PartialEquivBEq α]

omit [BEq α] [PartialEquivBEq α] in
/-- Selecting entries selects their occurrences. -/
theorem expand_filter (p : α → Bool) (entries : List (α × Nat)) :
    expand (entries.filter fun entry => p entry.1) = (expand entries).filter p := by
  induction entries with
  | nil => rfl
  | cons entry rest inductionHypothesis =>
      rw [expand_cons, List.filter_append, List.filter_replicate, ← inductionHypothesis,
        List.filter_cons]
      split
      · rfl
      · rfl

omit [BEq α] [PartialEquivBEq α] [BEq β] in
/-- The images of entries occur as often as they do. -/
theorem expand_map (f : α → β) (entries : List (α × Nat)) :
    expand (entries.map fun entry => (f entry.1, entry.2)) = (expand entries).map f := by
  induction entries with
  | nil => rfl
  | cons entry rest inductionHypothesis =>
      rw [List.map_cons, expand_cons, expand_cons, List.map_append, List.map_replicate,
        inductionHypothesis]

/-- A union has the elements of both bags. -/
theorem elements_union {a b result : Bag α} (built : a.union b = .ok result) :
    result.elements = a.elements + b.elements := by
  rw [elements_insertEntries built, elements_eq b]

/-- A sum has the elements of both bags. -/
theorem elements_add {a b result : Bag α} (built : a + b = Except.ok result) :
    result.elements = a.elements + b.elements := by
  rw [add_eq] at built
  rw [elements_insertAll built, intoList_eq, ← elements_eq]

/-- A selection has the elements that the predicate accepts. -/
theorem elements_filter {p : α → Bool} {bag result : Bag α} (built : bag.filter p = .ok result) :
    result.elements = classes (bag.toList.filter p) := by
  rw [elements_ofEntries built, expand_filter, toList_eq]

omit [PartialEquivBEq α] in
/-- A selection of elements is the table with a selection of the entries. -/
theorem filter_of_wellFormed {bag : Bag α} (wellFormed : WellFormed bag.entries) (p : α → Bool) :
    bag.filter p = .ok ⟨bag.entries.filter fun entry => p entry.1⟩ :=
  ofEntries_of_wellFormed (wellFormed.sublist List.filter_sublist)

omit [BEq β] in
/-- A map has the images of the elements. -/
theorem elements_map {f : β → α} {bag : Bag β} {result : Bag α} (built : bag.map f = .ok result) :
    result.elements = classes (bag.toList.map f) := by
  rw [elements_ofEntries built, expand_map, toList_eq]

omit [BEq β] in
/-- A flat map has the elements of all the lists that the elements are taken to. -/
theorem elements_flatMap {f : β → List α} {bag : Bag β} {result : Bag α}
    (built : bag.flatMap f = .ok result) : result.elements = classes (bag.toList.flatMap f) := by
  rw [elements_ofEntries built, toList_eq]
  exact classes_eq_of_perm (expand_imageEntries f bag.entries)

/-- Taking a value out takes one copy of it out of the multiset, if there is one. -/
theorem elements_remove {bag : Bag α} (wellFormed : WellFormed bag.entries) {value : α}
    (reflexive : (value == value) = true) :
    (bag.remove value).1.elements = bag.elements.erase (classOf value) := by
  rw [elements_eq, elements_eq]
  change classes (expand (removeEntry value bag.entries)) = _
  cases found : bag.entries.any fun entry => entry.1 == value with
  | true => rw [classes_removeEntry wellFormed.positive found, Multiset.erase_cons_head]
  | false =>
      have missing : ∀ entry ∈ bag.entries, (entry.1 == value) = false := by
        simpa using found
      have absent : classOf value ∉ classes (expand bag.entries) := by
        rw [← Multiset.count_eq_zero, count_classes reflexive,
          ← countIn_eq_count value wellFormed.apart]
        exact countIn_eq_zero missing
      rw [removeEntry_eq_self found, Multiset.erase_of_notMem absent]

/-- Taking every occurrence of a value out leaves the other values. -/
theorem elements_removeAll {bag : Bag α} (wellFormed : WellFormed bag.entries) {value : α}
    (reflexive : (value == value) = true) :
    (bag.removeAll value).1.elements = bag.elements.filter (· ≠ classOf value) := by
  have parts : bag.elements = Multiset.replicate (bag.count value) (classOf value) +
      (bag.removeAll value).1.elements := by
    rw [elements_eq, elements_eq]
    exact classes_eraseP value bag.entries
  have others : classOf value ∉ (bag.removeAll value).1.elements := by
    have counted := congrArg (Multiset.count (classOf value)) parts
    rw [Multiset.count_add, Multiset.count_replicate_self,
      count_eq_count_elements wellFormed reflexive] at counted
    exact Multiset.count_eq_zero.mp (Nat.left_eq_add.mp counted)
  rw [parts, Multiset.filter_add,
    Multiset.filter_eq_nil.mpr fun other member => by simp [Multiset.eq_of_mem_replicate member],
    Multiset.filter_eq_self.mpr fun other member => ne_of_mem_of_not_mem member others, zero_add]

end Elements

section Lookup

variable [PartialEquivBEq α]

/-- Equal values are counted the same. -/
theorem count_congr (bag : Bag α) {x y : α} (same : (x == y) = true) :
    bag.count x = bag.count y := by
  have alike : (fun entry : α × Nat => entry.1 == x) = fun entry => entry.1 == y :=
    funext fun entry => BEq.congr_right same
  rw [count, count, get?, get?, alike]

/-- The entry of a value is the one that a look-up finds. -/
theorem get?_eq_some_iff {bag : Bag α} (wellFormed : WellFormed bag.entries) {value : α} {n : Nat} :
    bag.get? value = some n ↔ ∃ stored, (stored, n) ∈ bag.entries ∧ (stored == value) = true := by
  obtain ⟨entries⟩ := bag
  change (entries.find? fun entry => entry.1 == value).map Prod.snd = some n ↔ _
  induction entries with
  | nil => simp
  | cons entry rest inductionHypothesis =>
      obtain ⟨stored, m⟩ := entry
      obtain ⟨apart, _, _, restWellFormed⟩ := wellFormed_cons.mp wellFormed
      cases same : stored == value with
      | false =>
          rw [List.find?_cons_of_neg (by simp [same]), inductionHypothesis restWellFormed]
          constructor
          · rintro ⟨other, member, found⟩
            exact ⟨other, List.mem_cons_of_mem _ member, found⟩
          · rintro ⟨other, member, found⟩
            rcases List.mem_cons.mp member with here | there
            · obtain ⟨rfl, rfl⟩ := Prod.mk.inj here
              rw [same] at found
              cases found
            · exact ⟨other, there, found⟩
      | true =>
          rw [List.find?_cons_of_pos (by simp [same])]
          constructor
          · rintro here
            obtain rfl := Option.some.inj here
            exact ⟨stored, List.mem_cons_self, same⟩
          · rintro ⟨other, member, found⟩
            rcases List.mem_cons.mp member with here | there
            · rw [Option.map_some, (Prod.mk.inj here).2]
            · rw [apart_of_beq apart same (other, n) there] at found
              cases found

/-- A value occurs if it has an entry. -/
theorem count_pos_iff {bag : Bag α} (wellFormed : WellFormed bag.entries) {value : α} :
    0 < bag.count value ↔ ∃ entry ∈ bag.entries, (entry.1 == value) = true := by
  rw [count]
  constructor
  · intro positive
    cases found : bag.get? value with
    | none => simp [found] at positive
    | some n =>
        obtain ⟨stored, member, same⟩ := (get?_eq_some_iff wellFormed).mp found
        exact ⟨(stored, n), member, same⟩
  · rintro ⟨⟨stored, n⟩, member, same⟩
    rw [(get?_eq_some_iff wellFormed).mpr ⟨stored, member, same⟩]
    exact wellFormed.positive _ member

/-- A count fits a counter. -/
theorem count_le_countLimit {bag : Bag α} (wellFormed : WellFormed bag.entries) (value : α) :
    bag.count value ≤ countLimit := by
  rw [count]
  cases found : bag.get? value with
  | none => exact Nat.zero_le _
  | some n =>
      obtain ⟨stored, member, _⟩ := (get?_eq_some_iff wellFormed).mp found
      exact wellFormed.bounded _ member

/-- What occurs is equal to itself. -/
theorem beq_self_of_count_pos {bag : Bag α} (wellFormed : WellFormed bag.entries) {value : α}
    (occurs : 0 < bag.count value) : (value == value) = true := by
  obtain ⟨_, _, same⟩ := (count_pos_iff wellFormed).mp occurs
  exact BEq.trans (BEq.symm same) same

omit [PartialEquivBEq α] in
/-- A count that is not zero is the one that a look-up finds. -/
theorem get?_eq_some_iff_count {bag : Bag α} {value : α} {n : Nat} (positive : 0 < n) :
    bag.get? value = some n ↔ bag.count value = n := by
  rw [count]
  cases bag.get? value with
  | none => exact iff_of_false (by simp) (by simpa using positive.ne)
  | some m => simp

/-- Every value of a table is equal to itself. -/
def SelfEqual (entries : List (α × Nat)) : Prop := ∀ entry ∈ entries, (entry.1 == entry.1) = true

omit [PartialEquivBEq α] in
/-- With a reflexive `==`, every value of a table is equal to itself. -/
theorem selfEqual [ReflBEq α] (entries : List (α × Nat)) : SelfEqual entries :=
  fun _ _ => BEq.rfl

omit [PartialEquivBEq α] in
/-- What holds of every value of a table holds of those that are left when one is taken out. -/
theorem forall_removeEntry (holds : α → Prop) (value : α) {entries : List (α × Nat)}
    (all : ∀ entry ∈ entries, holds entry.1) :
    ∀ entry ∈ removeEntry value entries, holds entry.1 := by
  intro entry member
  have fewer := (values_removeEntry value entries).subset
  obtain ⟨origin, isEntry, same⟩ := List.mem_map.mp (fewer (List.mem_map_of_mem member))
  rw [← same]
  exact all origin isEntry

omit [PartialEquivBEq α] in
/-- The values that are left when one is taken out are equal to themselves. -/
theorem selfEqual_removeEntry (value : α) {entries : List (α × Nat)} (self : SelfEqual entries) :
    SelfEqual (removeEntry value entries) :=
  forall_removeEntry (fun stored => (stored == stored) = true) value self

/-- The count of a value that has an entry is the entry's. -/
theorem count_of_mem {bag : Bag α} (wellFormed : WellFormed bag.entries)
    (self : SelfEqual bag.entries) {entry : α × Nat} (member : entry ∈ bag.entries) :
    bag.count entry.1 = entry.2 :=
  (get?_eq_some_iff_count (wellFormed.positive entry member)).mp
    ((get?_eq_some_iff wellFormed).mpr ⟨entry.1, member, self entry member⟩)

/-- The classes of the values that have an entry. -/
def keys (bag : Bag α) : List (Class α) := bag.entries.map fun entry => classOf entry.1

/-- There are as many keys as entries. -/
theorem length_keys (bag : Bag α) : bag.keys.length = bag.distinct := List.length_map _

/-- The keys are the classes of the values that are counted. -/
theorem classOf_mem_keys {bag : Bag α} (wellFormed : WellFormed bag.entries) {value : α}
    (reflexive : (value == value) = true) : classOf value ∈ bag.keys ↔ 0 < bag.count value := by
  rw [count_pos_iff wellFormed, keys, List.mem_map]
  exact exists_congr fun entry => and_congr_right fun _ => classOf_eq_iff_beq reflexive

/-- No key occurs twice. -/
theorem nodup_keys {bag : Bag α} (wellFormed : WellFormed bag.entries)
    (self : SelfEqual bag.entries) : bag.keys.Nodup := by
  have apart := wellFormed.apart
  rw [List.pairwise_map] at apart
  rw [keys, List.nodup_iff_pairwise_ne, List.pairwise_map]
  refine apart.imp_of_mem fun {entry other} _ isOther distinct merged => ?_
  rw [(classOf_eq_iff_beq (self other isOther)).mp merged] at distinct
  cases distinct

/-- Where every value of one bag occurs in another, the other has its classes. -/
theorem keys_subset {a b : Bag α} (wellFormedB : WellFormed b.entries) (selfA : SelfEqual a.entries)
    (occurs : ∀ entry ∈ a.entries, 0 < b.count entry.1) : a.keys ⊆ b.keys := by
  intro key member
  obtain ⟨entry, isEntry, rfl⟩ := List.mem_map.mp member
  exact (classOf_mem_keys wellFormedB (selfA entry isEntry)).mpr (occurs entry isEntry)

/-- An element of a bag has an entry. -/
theorem exists_entry_of_mem_elements {bag : Bag α} {key : Class α}
    (member : key ∈ bag.elements) : ∃ entry ∈ bag.entries, classOf entry.1 = key := by
  rw [elements_eq, classes, expand, List.map_flatMap, Multiset.mem_coe, List.mem_flatMap] at member
  obtain ⟨entry, isEntry, isCopy⟩ := member
  rw [List.map_replicate] at isCopy
  exact ⟨entry, isEntry, (List.eq_of_mem_replicate isCopy).symm⟩

/-- Where every value occurs at least as often in one bag as in another, the one holds the other. -/
theorem elements_le {a b : Bag α} (wellFormedA : WellFormed a.entries)
    (wellFormedB : WellFormed b.entries) (selfA : SelfEqual a.entries)
    (fewer : ∀ value, a.count value ≤ b.count value) : a.elements ≤ b.elements := by
  rw [Multiset.le_iff_count]
  intro key
  by_cases member : key ∈ a.elements
  · obtain ⟨entry, isEntry, rfl⟩ := exists_entry_of_mem_elements member
    have reflexive := selfA entry isEntry
    rw [← count_eq_count_elements wellFormedA reflexive,
      ← count_eq_count_elements wellFormedB reflexive]
    exact fewer entry.1
  · rw [Multiset.count_eq_zero_of_notMem member]
    exact Nat.zero_le _

variable {a b : Bag α} (wellFormedA : WellFormed a.entries) (wellFormedB : WellFormed b.entries)
variable (selfA : SelfEqual a.entries) (selfB : SelfEqual b.entries)
include wellFormedA wellFormedB selfA selfB

/-- Bags are equal exactly if all counts agree. -/
theorem beq_iff_count : (a == b) = true ↔ ∀ value, a.count value = b.count value := by
  change (a.distinct == b.distinct && a.entries.all fun entry => b.get? entry.1 == some entry.2) =
    true ↔ _
  rw [Bool.and_eq_true, beq_iff_eq, List.all_eq_true]
  constructor
  · rintro ⟨sameLength, sameEntries⟩
    have stored : ∀ entry ∈ a.entries, b.count entry.1 = entry.2 := by
      intro entry member
      rw [count, eq_of_beq (sameEntries entry member), Option.getD_some]
    have fewer : a.keys ⊆ b.keys := keys_subset wellFormedB selfA fun entry member => by
      rw [stored entry member]
      exact wellFormedA.positive entry member
    -- The comparison only looks up the values of one table; that the other has no more follows from
    -- the number of entries.
    have sameKeys : a.keys.Perm b.keys :=
      ((nodup_keys wellFormedA selfA).subperm fewer).perm_of_length_le
        (by rw [length_keys, length_keys, sameLength])
    intro value
    by_cases occurs : 0 < a.count value
    · obtain ⟨entry, member, same⟩ := (count_pos_iff wellFormedA).mp occurs
      rw [← count_congr a same, ← count_congr b same, stored entry member,
        count_of_mem wellFormedA selfA member]
    · have missing : ¬0 < b.count value := by
        intro occursThere
        have reflexive := beq_self_of_count_pos wellFormedB occursThere
        rw [← classOf_mem_keys wellFormedB reflexive, ← sameKeys.mem_iff,
          classOf_mem_keys wellFormedA reflexive] at occursThere
        exact occurs occursThere
      omega
  · intro sameCounts
    have fewer : a.keys ⊆ b.keys := keys_subset wellFormedB selfA fun entry member => by
      rw [← sameCounts, count_of_mem wellFormedA selfA member]
      exact wellFormedA.positive entry member
    have noMore : b.keys ⊆ a.keys := keys_subset wellFormedA selfB fun entry member => by
      rw [sameCounts, count_of_mem wellFormedB selfB member]
      exact wellFormedB.positive entry member
    have sameKeys : a.keys.Perm b.keys :=
      (List.perm_ext_iff_of_nodup (nodup_keys wellFormedA selfA) (nodup_keys wellFormedB selfB)).mpr
        fun key => ⟨fun member => fewer member, fun member => noMore member⟩
    refine ⟨by rw [← length_keys, ← length_keys, sameKeys.length_eq], fun entry member => ?_⟩
    rw [beq_iff_eq, get?_eq_some_iff_count (wellFormedA.positive entry member), ← sameCounts]
    exact count_of_mem wellFormedA selfA member

/-- Equal bags have one multiset. -/
theorem beq_iff_elements : (a == b) = true ↔ a.elements = b.elements := by
  rw [beq_iff_count wellFormedA wellFormedB selfA selfB]
  constructor
  · intro same
    exact le_antisymm (elements_le wellFormedA wellFormedB selfA fun value => (same value).le)
      (elements_le wellFormedB wellFormedA selfB fun value => (same value).ge)
  · intro same value
    by_cases reflexive : (value == value) = true
    · rw [count_eq_count_elements wellFormedA reflexive,
        count_eq_count_elements wellFormedB reflexive, same]
    · have absentA : ¬0 < a.count value := mt (beq_self_of_count_pos wellFormedA) reflexive
      have absentB : ¬0 < b.count value := mt (beq_self_of_count_pos wellFormedB) reflexive
      omega

end Lookup

section Recounting

variable [EquivBEq α]

/-- Counts that are made anew from each count, and from nothing are nothing. -/
theorem count_recount (recount : α → Nat → Nat)
    (congruent : ∀ {x y : α} (n : Nat), (x == y) = true → recount x n = recount y n)
    (nothing : ∀ x, recount x 0 = 0) (value : α) {entries : List (α × Nat)}
    (wellFormed : WellFormed entries) :
    (expand (entries.map fun entry => (entry.1, recount entry.1 entry.2))).count value =
      recount value (countIn value entries) := by
  induction entries with
  | nil => exact (nothing value).symm
  | cons entry rest inductionHypothesis =>
      obtain ⟨stored, n⟩ := entry
      obtain ⟨apart, _, _, restWellFormed⟩ := wellFormed_cons.mp wellFormed
      rw [List.map_cons, count_expand_cons, inductionHypothesis restWellFormed]
      cases same : stored == value with
      | true =>
          rw [countIn_eq_zero (apart_of_beq apart same), nothing, countIn_cons_of_beq same,
            congruent n same]
          rfl
      | false => simp [countIn_cons_of_not_beq same]

end Recounting

section Results

/-- A count can be raised where the sum would still fit a counter. -/
theorem exists_insertEntry_of_count (value : α) {n : Nat} {entries : List (α × Nat)}
    (fits : countIn value entries + n ≤ countLimit) :
    ∃ result, insertEntry value n entries = .ok result := by
  induction entries with
  | nil =>
      rw [countIn_nil] at fits
      exact ⟨[(value, 0 + n)], by rw [insertEntry, addCounts_of_le fits]; rfl⟩
  | cons entry rest inductionHypothesis =>
      obtain ⟨stored, m⟩ := entry
      rw [insertEntry]
      cases same : stored == value with
      | true =>
          rw [countIn_cons_of_beq same] at fits
          rw [addCounts_of_le fits]
          exact ⟨_, rfl⟩
      | false =>
          rw [countIn_cons_of_not_beq same] at fits
          obtain ⟨after, inserted⟩ := inductionHypothesis fits
          rw [inserted]
          exact ⟨_, rfl⟩

/-- Occurrences can be added where the count would still fit a counter. -/
theorem exists_insertMany_of_count (bag : Bag α) (value : α) {n : Nat}
    (fits : bag.count value + n ≤ countLimit) : ∃ result, bag.insertMany value n = .ok result := by
  unfold insertMany
  split
  · exact ⟨bag, rfl⟩
  · obtain ⟨entries, inserted⟩ := exists_insertEntry_of_count value fits
    rw [inserted]
    exact ⟨⟨entries⟩, rfl⟩

/-- A computation gives a well-formed bag with these counts. -/
def Gives (computation : Except Fault (Bag α)) (counts : α → Nat) : Prop :=
  ∃ result, computation = .ok result ∧ WellFormed result.entries ∧
    ∀ value, result.count value = counts value

/-- A bag gives its own counts. -/
theorem gives_ok {bag : Bag α} (wellFormed : WellFormed bag.entries) : Gives (.ok bag) bag.count :=
  ⟨bag, rfl, wellFormed, fun _ => rfl⟩

/-- Only the counts matter of what a computation gives. -/
theorem Gives.congr {computation : Except Fault (Bag α)} {counts others : α → Nat}
    (given : Gives computation counts) (same : ∀ value, counts value = others value) :
    Gives computation others := by
  rwa [← funext same]

/-- A computation that gives a bag has a result. -/
theorem Gives.exists_ok {computation : Except Fault (Bag α)} {counts : α → Nat}
    (given : Gives computation counts) : ∃ result, computation = .ok result := by
  obtain ⟨result, built, _⟩ := given
  exact ⟨result, built⟩

/-- A computation that goes on with a bag only looks at its counts. -/
theorem Gives.bind {first : Except Fault (Bag α)} {rest : Bag α → Except Fault (Bag α)}
    {counts final : α → Nat} (given : Gives first counts)
    (goesOn : ∀ middle : Bag α, WellFormed middle.entries →
      (∀ value, middle.count value = counts value) → Gives (rest middle) final) :
    Gives (first >>= rest) final := by
  obtain ⟨middle, rfl, wellFormed, counted⟩ := given
  exact goesOn middle wellFormed counted

variable [EquivBEq α]

/-- Inserted occurrences raise the count of their value and no other. -/
theorem count_insertMany {bag result : Bag α} {value : α} {n : Nat}
    (inserted : bag.insertMany value n = .ok result) (other : α) :
    result.count other = bag.count other + if value == other then n else 0 := by
  cases same : value == other with
  | true =>
      rw [← count_congr result same, ← count_congr bag same,
        count_insertMany_self BEq.rfl inserted]
      rfl
  | false =>
      refine count_insertMany_other (fun stored matched => ?_) same inserted
      rw [BEq.congr_left matched]
      exact BEq.symm_false same

/-- Inserted entries raise the count of each value by its occurrences. -/
theorem count_insertEntries {bag result : Bag α} {entries : List (α × Nat)}
    (inserted : bag.insertEntries entries = .ok result) (value : α) :
    result.count value = bag.count value + (expand entries).count value := by
  induction entries generalizing bag with
  | nil =>
      obtain rfl := Except.ok.inj inserted
      rfl
  | cons entry rest inductionHypothesis =>
      rw [insertEntries, List.foldlM_cons, bind_eq_ok] at inserted
      obtain ⟨middle, first, others⟩ := inserted
      rw [inductionHypothesis others, count_insertMany first, count_expand_cons, Nat.add_assoc]

/-- Entries can be inserted where every count would still fit a counter. -/
theorem exists_insertEntries_of_count (bag : Bag α) (entries : List (α × Nat))
    (fits : ∀ value, bag.count value + (expand entries).count value ≤ countLimit) :
    ∃ result, bag.insertEntries entries = .ok result := by
  induction entries generalizing bag with
  | nil => exact ⟨bag, rfl⟩
  | cons entry rest inductionHypothesis =>
      have here : bag.count entry.1 + entry.2 ≤ countLimit := by
        have fitsHere := fits entry.1
        rw [count_expand_cons, if_pos BEq.rfl] at fitsHere
        omega
      obtain ⟨middle, first⟩ := exists_insertMany_of_count bag entry.1 here
      have fitsAfter : ∀ value, middle.count value + (expand rest).count value ≤ countLimit := by
        intro value
        rw [count_insertMany first, Nat.add_assoc, ← count_expand_cons]
        exact fits value
      obtain ⟨result, others⟩ := inductionHypothesis middle fitsAfter
      exact ⟨result, by rw [insertEntries, List.foldlM_cons, first]; exact others⟩

variable {a b : Bag α} (wellFormedA : WellFormed a.entries) (wellFormedB : WellFormed b.entries)
include wellFormedA

/-- Entries with counts that are made anew build a bag with those counts. -/
theorem gives_recount (recount : α → Nat → Nat)
    (congruent : ∀ {x y : α} (n : Nat), (x == y) = true → recount x n = recount y n)
    (less : ∀ x n, recount x n ≤ n) :
    Gives (ofEntries (a.entries.map fun entry => (entry.1, recount entry.1 entry.2)))
      fun value => recount value (a.count value) := by
  have counted (value : α) := count_recount recount congruent
    (fun x => Nat.le_zero.mp (less x 0)) value wellFormedA
  obtain ⟨result, built⟩ := exists_insertEntries_of_count (∅ : Bag α) _ fun value => by
    rw [counted]
    exact (Nat.zero_add _).trans_le ((less _ _).trans (count_le_countLimit wellFormedA value))
  refine ⟨result, built, wellFormed_ofEntries built, fun value => ?_⟩
  rw [count_insertEntries built, counted]
  exact Nat.zero_add _

/-- A complement has what is left of the counts when those of the other bag are taken off. -/
theorem gives_complement (b : Bag α) :
    Gives (a.complement b) fun value => a.count value - b.count value :=
  gives_recount wellFormedA (fun value n => n - b.count value)
    (fun n same => by rw [count_congr b same]) fun _ _ => Nat.sub_le _ _

include wellFormedB

/-- A union adds the counts, where each sum fits a counter. -/
theorem gives_union (fits : ∀ value, a.count value + b.count value ≤ countLimit) :
    Gives (a.union b) fun value => a.count value + b.count value := by
  have counted (value : α) : b.count value = (expand b.entries).count value :=
    countIn_eq_count value wellFormedB.apart
  obtain ⟨result, built⟩ := exists_insertEntries_of_count a b.entries fun value => by
    rw [← counted]
    exact fits value
  refine ⟨result, built, wellFormed_insertEntries built wellFormedA, fun value => ?_⟩
  rw [count_insertEntries built, ← counted]

/-- An intersection has the smaller count of each value, whichever bag is walked. -/
theorem gives_intersection :
    Gives (a.intersection b) fun value => min (a.count value) (b.count value) := by
  have walk (large : Bag α) {small : Bag α} (wellFormed : WellFormed small.entries) :=
    gives_recount wellFormed (fun value n => min n (large.count value))
      (fun n same => by rw [count_congr large same]) fun _ _ => Nat.min_le_left _ _
  rw [intersection]
  split
  next small large order =>
  split at order
  · obtain ⟨rfl, rfl⟩ := Prod.mk.inj order
    exact walk b wellFormedA
  · obtain ⟨rfl, rfl⟩ := Prod.mk.inj order
    exact (walk a wellFormedB).congr fun value => Nat.min_comm _ _

/-- A difference has what each count exceeds the other by. -/
theorem gives_difference :
    Gives (a.difference b) fun value =>
      (a.count value - b.count value) + (b.count value - a.count value) := by
  refine (gives_complement wellFormedA b).bind fun mine mineWellFormed mineCounted => ?_
  refine (gives_complement wellFormedB a).bind fun yours yoursWellFormed yoursCounted => ?_
  have fits (value : α) : mine.count value + yours.count value ≤ countLimit := by
    have boundA := count_le_countLimit wellFormedA value
    have boundB := count_le_countLimit wellFormedB value
    rw [mineCounted, yoursCounted]
    omega
  exact (gives_union mineWellFormed yoursWellFormed fits).congr fun value => by
    rw [mineCounted, yoursCounted]

end Results

end RootFinding.Bag
