import RootFinding.Proofs.Bag.Counts

/-!
# The multiset of a bag

A bag stands for a multiset of values, in which values that are equal by `==` are one. Insertion
adds to that multiset, removal takes from it, and the count of a value is its multiplicity, so that
what holds of multisets holds of bags.

Nothing here needs `==` to be reflexive, except on the value that is looked up: a value that is not
equal to itself is one only with itself, and its count is zero.
-/

namespace RootFinding.Bag

open Outcome

variable {α β : Type} [BEq α] [BEq β]

section Classes

variable [PartialEquivBEq α]

/-- Values that are one in a multiset. -/
def oneValue (α : Type) [BEq α] [PartialEquivBEq α] : Setoid α where
  r x y := x = y ∨ (x == y) = true
  iseqv :=
    { refl := fun _ => Or.inl rfl
      symm := by
        rintro x y (rfl | same)
        · exact Or.inl rfl
        · exact Or.inr (BEq.symm same)
      trans := by
        rintro x y z (rfl | first) (rfl | second)
        · exact Or.inl rfl
        · exact Or.inr second
        · exact Or.inr first
        · exact Or.inr (BEq.trans first second) }

/-- A value up to `==`. -/
def Class (α : Type) [BEq α] [PartialEquivBEq α] : Type := Quotient (oneValue α)

noncomputable instance : DecidableEq (Class α) := Classical.decEq _

/-- The class of a value. -/
def classOf (value : α) : Class α := Quotient.mk (oneValue α) value

/-- Every class is that of a value. -/
theorem exists_classOf (key : Class α) : ∃ value, classOf value = key := Quotient.exists_rep key

/-- Values have one class exactly if they are one or equal. -/
theorem classOf_eq_iff {x y : α} : classOf x = classOf y ↔ x = y ∨ (x == y) = true :=
  Quotient.eq (r := oneValue α)

/-- Equal values have one class. -/
theorem classOf_eq_of_beq {x y : α} (same : (x == y) = true) : classOf x = classOf y :=
  classOf_eq_iff.mpr (Or.inr same)

/-- Of a value that is equal to itself, the class is what it is equal to. -/
theorem classOf_eq_iff_beq {x y : α} (reflexive : (y == y) = true) :
    classOf x = classOf y ↔ (x == y) = true := by
  rw [classOf_eq_iff]
  constructor
  · rintro (rfl | same)
    · exact reflexive
    · exact same
  · exact Or.inr

/-- The multiset of the values of a list. -/
def classes (values : List α) : Multiset (Class α) := (values.map classOf : List (Class α))

/-- An empty list has no classes. -/
@[simp] theorem classes_nil : classes ([] : List α) = 0 := rfl

/-- A value adds its class. -/
@[simp] theorem classes_cons (value : α) (values : List α) :
    classes (value :: values) = classOf value ::ₘ classes values := rfl

/-- The classes of two lists add up. -/
@[simp] theorem classes_append (front back : List α) :
    classes (front ++ back) = classes front + classes back := by
  simp [classes]

/-- Copies of a value are copies of its class. -/
@[simp] theorem classes_replicate (n : Nat) (value : α) :
    classes (List.replicate n value) = Multiset.replicate n (classOf value) := by
  rw [classes, List.map_replicate, Multiset.coe_replicate]

/-- The classes do not depend on the order of the values. -/
theorem classes_eq_of_perm {values others : List α} (rearranged : values.Perm others) :
    classes values = classes others :=
  Multiset.coe_eq_coe.mpr (rearranged.map classOf)

/-- A value that is equal to itself occurs in a list as often as its class in the multiset. -/
theorem count_classes {value : α} (reflexive : (value == value) = true) (values : List α) :
    (classes values).count (classOf value) = values.count value := by
  induction values with
  | nil => rfl
  | cons first rest inductionHypothesis =>
      rw [classes_cons, Multiset.count_cons, inductionHypothesis, List.count_cons]
      congr 1
      by_cases same : (first == value) = true
      · rw [if_pos same, if_pos (classOf_eq_of_beq same).symm]
      · rw [if_neg same, if_neg fun merged => same ((classOf_eq_iff_beq reflexive).mp merged.symm)]

/-- The multiset of the elements of a bag. -/
def elements (bag : Bag α) : Multiset (Class α) := classes bag.toList

/-- The elements are the classes of the values in the table. -/
theorem elements_eq (bag : Bag α) : bag.elements = classes (expand bag.entries) := by
  rw [elements, toList_eq]

/-- The empty bag has no elements. -/
@[simp] theorem elements_empty : (∅ : Bag α).elements = 0 := by
  rw [elements, toList_empty, classes_nil]

/-- The multiset has as many elements as the bag. -/
theorem card_elements (bag : Bag α) : bag.elements.card = bag.total := by
  rw [← length_toList, elements, classes, Multiset.coe_card, List.length_map]

end Classes

section Insertion

variable [PartialEquivBEq α]

/-- Raising a count adds as many copies of the value. -/
theorem Raised.classes_eq {value : α} {n : Nat} {entries result : List (α × Nat)}
    (raised : Raised value n entries result) :
    classes (expand result) = classes (expand entries) + Multiset.replicate n (classOf value) := by
  induction raised with
  | new fits => simp
  | here same fits =>
      rw [expand_cons, expand_cons, classes_append, classes_append, classes_replicate,
        classes_replicate, classOf_eq_of_beq same, Multiset.replicate_add]
      exact add_right_comm _ _ _
  | later other _ inductionHypothesis =>
      rw [expand_cons, expand_cons, classes_append, classes_append, inductionHypothesis, add_assoc]

/-- Inserted occurrences come to the multiset. -/
theorem elements_insertMany {bag result : Bag α} {value : α} {n : Nat}
    (inserted : bag.insertMany value n = .ok result) :
    result.elements = bag.elements + Multiset.replicate n (classOf value) := by
  rcases raised_of_insertMany inserted with ⟨rfl, rfl⟩ | ⟨_, raised⟩
  · exact (add_zero _).symm
  · rw [elements_eq, elements_eq]
    exact raised.classes_eq

/-- Inserted entries come to the multiset with their counts. -/
theorem elements_insertEntries {bag result : Bag α} {entries : List (α × Nat)}
    (inserted : bag.insertEntries entries = .ok result) :
    result.elements = bag.elements + classes (expand entries) := by
  induction entries generalizing bag with
  | nil =>
      obtain rfl := Except.ok.inj inserted
      simp
  | cons entry rest inductionHypothesis =>
      rw [insertEntries, List.foldlM_cons, bind_eq_ok] at inserted
      obtain ⟨middle, first, others⟩ := inserted
      rw [inductionHypothesis others, elements_insertMany first, expand_cons, classes_append,
        classes_replicate, add_assoc]

/-- Inserted values come to the multiset. -/
theorem elements_insertAll {bag result : Bag α} {values : List α}
    (inserted : bag.insertAll values = .ok result) :
    result.elements = bag.elements + classes values := by
  rw [insertAll_eq_insertEntries] at inserted
  rw [elements_insertEntries inserted, expand_map_one]

/-- The multiset of a bag that is built from entries is theirs. -/
theorem elements_ofEntries {entries : List (α × Nat)} {bag : Bag α}
    (built : ofEntries entries = .ok bag) : bag.elements = classes (expand entries) := by
  rw [elements_insertEntries built, elements_empty, zero_add]

/-- The multiset of a bag that is built from a list is the list's. -/
theorem elements_ofList {values : List α} {bag : Bag α} (built : ofList values = .ok bag) :
    bag.elements = classes values := by
  rw [elements_insertAll built, elements_empty, zero_add]

end Insertion

section Table

/-- What a table keeps: its values are apart, and its counts are positive and fit a counter. -/
structure WellFormed (entries : List (α × Nat)) : Prop where
  apart : (entries.map Prod.fst).Pairwise fun value other => (value == other) = false
  positive : ∀ entry ∈ entries, 0 < entry.2
  bounded : ∀ entry ∈ entries, entry.2 ≤ countLimit

/-- No value has two entries. -/
def Distinct (entries : List (α × Nat)) : Prop := (entries.map Prod.fst).Nodup

/-- Where `==` is equality, values that are apart are distinct ones. -/
theorem distinct_iff_apart [LawfulBEq α] {entries : List (α × Nat)} :
    Distinct entries ↔
      (entries.map Prod.fst).Pairwise fun value other => (value == other) = false := by
  simp only [Distinct, List.Nodup, beq_eq_false_iff_ne]

/-- An empty table is well-formed. -/
theorem wellFormed_nil : WellFormed ([] : List (α × Nat)) :=
  ⟨List.Pairwise.nil, by simp, by simp⟩

/-- What a first entry adds to a well-formed table. -/
theorem wellFormed_cons {stored : α} {n : Nat} {rest : List (α × Nat)} :
    WellFormed ((stored, n) :: rest) ↔
      (∀ value ∈ rest.map Prod.fst, (stored == value) = false) ∧ 0 < n ∧ n ≤ countLimit ∧
        WellFormed rest := by
  constructor
  · rintro ⟨apart, positive, bounded⟩
    rw [List.map_cons, List.pairwise_cons] at apart
    rw [List.forall_mem_cons] at positive bounded
    exact ⟨apart.1, positive.1, bounded.1, apart.2, positive.2, bounded.2⟩
  · rintro ⟨apart, positive, bounded, restApart, restPositive, restBounded⟩
    exact ⟨List.pairwise_cons.mpr ⟨apart, restApart⟩,
      List.forall_mem_cons.mpr ⟨positive, restPositive⟩,
      List.forall_mem_cons.mpr ⟨bounded, restBounded⟩⟩

/-- Raising a count by something keeps a table well formed. -/
theorem Raised.wellFormed {value : α} {n : Nat} (some : 0 < n) {entries result : List (α × Nat)}
    (raised : Raised value n entries result) (wellFormed : WellFormed entries) :
    WellFormed result := by
  induction raised with
  | new fits => exact wellFormed_cons.mpr ⟨by simp, by omega, fits, wellFormed_nil⟩
  | here same fits =>
      obtain ⟨apart, _, _, restWellFormed⟩ := wellFormed_cons.mp wellFormed
      exact wellFormed_cons.mpr ⟨apart, by omega, fits, restWellFormed⟩
  | later other raised inductionHypothesis =>
      obtain ⟨apart, positive, bounded, restWellFormed⟩ := wellFormed_cons.mp wellFormed
      refine wellFormed_cons.mpr
        ⟨fun found member => ?_, positive, bounded, inductionHypothesis restWellFormed⟩
      rcases raised.eq_or_mem member with rfl | old
      · exact other
      · exact apart found old

/-- Inserting copies of a value keeps a table well-formed. -/
theorem wellFormed_insertMany {bag result : Bag α} {value : α} {n : Nat}
    (inserted : bag.insertMany value n = .ok result) (wellFormed : WellFormed bag.entries) :
    WellFormed result.entries := by
  rcases raised_of_insertMany inserted with ⟨_, rfl⟩ | ⟨some, raised⟩
  · exact wellFormed
  · exact raised.wellFormed some wellFormed

/-- Inserting the entries of another table keeps a table well-formed. -/
theorem wellFormed_insertEntries {bag result : Bag α} {entries : List (α × Nat)}
    (inserted : bag.insertEntries entries = .ok result) (wellFormed : WellFormed bag.entries) :
    WellFormed result.entries := by
  induction entries generalizing bag with
  | nil =>
      obtain rfl := Except.ok.inj inserted
      exact wellFormed
  | cons entry rest inductionHypothesis =>
      rw [insertEntries, List.foldlM_cons, bind_eq_ok] at inserted
      obtain ⟨middle, first, others⟩ := inserted
      exact inductionHypothesis others (wellFormed_insertMany first wellFormed)

/-- Inserting a list of values keeps a table well-formed. -/
theorem wellFormed_insertAll {bag result : Bag α} {values : List α}
    (inserted : bag.insertAll values = .ok result) (wellFormed : WellFormed bag.entries) :
    WellFormed result.entries := by
  rw [insertAll_eq_insertEntries] at inserted
  exact wellFormed_insertEntries inserted wellFormed

/-- What is built from entries is well formed, whatever the entries are. -/
theorem wellFormed_ofEntries {entries : List (α × Nat)} {bag : Bag α}
    (built : ofEntries entries = .ok bag) : WellFormed bag.entries :=
  wellFormed_insertEntries built wellFormed_nil

/-- A value without an entry gets one at the end. -/
theorem insertEntry_of_missing {value : α} {n : Nat} (fits : n ≤ countLimit)
    {entries : List (α × Nat)} (missing : ∀ entry ∈ entries, (entry.1 == value) = false) :
    insertEntry value n entries = .ok (entries ++ [(value, n)]) := by
  induction entries with
  | nil =>
      rw [insertEntry, addCounts_of_le (by omega), Nat.zero_add]
      rfl
  | cons entry rest inductionHypothesis =>
      obtain ⟨other, missingThere⟩ := List.forall_mem_cons.mp missing
      rw [insertEntry, if_neg (by simp [other]), inductionHypothesis missingThere]
      rfl

/-- Entries that go on with a well-formed table are inserted as they are. -/
theorem insertEntries_of_wellFormed {entries others : List (α × Nat)}
    (wellFormed : WellFormed (entries ++ others)) :
    insertEntries ⟨entries⟩ others = .ok ⟨entries ++ others⟩ := by
  induction others generalizing entries with
  | nil =>
      rw [List.append_nil]
      rfl
  | cons entry rest inductionHypothesis =>
      have member : entry ∈ entries ++ entry :: rest := by simp
      have positive := wellFormed.positive entry member
      have apart := wellFormed.apart
      rw [List.map_append, List.pairwise_append] at apart
      have missing : ∀ stored ∈ entries, (stored.1 == entry.1) = false := fun stored isStored =>
        apart.2.2 stored.1 (List.mem_map_of_mem isStored) entry.1 (by simp)
      have first : insertMany ⟨entries⟩ entry.1 entry.2 = .ok ⟨entries ++ [entry]⟩ := by
        rw [insertMany, if_neg positive.ne',
          insertEntry_of_missing (wellFormed.bounded entry member) missing]
        rfl
      rw [insertEntries, List.foldlM_cons, first]
      have regrouped : entries ++ entry :: rest = entries ++ [entry] ++ rest := by simp
      rw [regrouped] at wellFormed ⊢
      exact inductionHypothesis wellFormed

/-- A well-formed table is the one that its entries build. -/
theorem ofEntries_of_wellFormed {entries : List (α × Nat)} (wellFormed : WellFormed entries) :
    ofEntries entries = .ok ⟨entries⟩ := by
  rw [← List.nil_append entries] at wellFormed ⊢
  exact insertEntries_of_wellFormed wellFormed

/-- A part of a well-formed table is one. -/
theorem WellFormed.sublist {entries part : List (α × Nat)} (wellFormed : WellFormed entries)
    (fewer : part.Sublist entries) : WellFormed part where
  apart := wellFormed.apart.sublist (fewer.map Prod.fst)
  positive entry member := wellFormed.positive entry (fewer.subset member)
  bounded entry member := wellFormed.bounded entry (fewer.subset member)

/-- A removal stores no new value. -/
theorem values_removeEntry (value : α) (entries : List (α × Nat)) :
    ((removeEntry value entries).map Prod.fst).Sublist (entries.map Prod.fst) := by
  induction entries with
  | nil => exact List.Sublist.refl _
  | cons entry rest inductionHypothesis =>
      obtain ⟨stored, m⟩ := entry
      rw [removeEntry]
      split
      · split
        · exact List.Sublist.refl _
        · exact List.sublist_cons_self _ _
      · exact inductionHypothesis.cons_cons _

/-- Taking an entry out keeps a table well-formed. -/
theorem wellFormed_removeEntry (value : α) {entries : List (α × Nat)}
    (wellFormed : WellFormed entries) : WellFormed (removeEntry value entries) := by
  induction entries with
  | nil => exact wellFormed_nil
  | cons entry rest inductionHypothesis =>
      obtain ⟨stored, m⟩ := entry
      obtain ⟨apart, positive, bounded, restWellFormed⟩ := wellFormed_cons.mp wellFormed
      rw [removeEntry]
      split
      · split
        · exact wellFormed_cons.mpr ⟨apart, by omega, by omega, restWellFormed⟩
        · exact restWellFormed
      · have fewer := (values_removeEntry value rest).subset
        exact wellFormed_cons.mpr ⟨fun found member => apart found (fewer member), positive,
          bounded, inductionHypothesis restWellFormed⟩

/-- Removing all copies of a value keeps a table well-formed. -/
theorem wellFormed_removeAll (bag : Bag α) (value : α) (wellFormed : WellFormed bag.entries) :
    WellFormed (bag.removeAll value).1.entries :=
  wellFormed.sublist List.eraseP_sublist

/-- A table may list its entries in any order. -/
theorem WellFormed.perm [PartialEquivBEq α] {entries others : List (α × Nat)}
    (rearranged : others.Perm entries) (wellFormed : WellFormed entries) : WellFormed others where
  apart := (rearranged.map Prod.fst).symm.pairwise wellFormed.apart BEq.symm_false
  positive entry member := wellFormed.positive entry (rearranged.subset member)
  bounded entry member := wellFormed.bounded entry (rearranged.subset member)

end Table

section Counts

/-- A value without an entry has the count zero. -/
theorem countIn_eq_zero {value : α} {entries : List (α × Nat)}
    (missing : ∀ entry ∈ entries, (entry.1 == value) = false) : countIn value entries = 0 := by
  have noEntry : entries.find? (fun entry => entry.1 == value) = none :=
    List.find?_eq_none.mpr fun entry member => by simp [missing entry member]
  simp [countIn, noEntry]

/-- The occurrences of a value are those in the first entry and those in the rest. -/
theorem count_expand_cons (value : α) (entry : α × Nat) (rest : List (α × Nat)) :
    (expand (entry :: rest)).count value =
      (if entry.1 == value then entry.2 else 0) + (expand rest).count value := by
  rw [expand_cons, List.count_append, List.count_eq_countP, List.countP_replicate]

variable [PartialEquivBEq α]

/-- Entries that are apart from a stored value are apart from what it is equal to. -/
theorem apart_of_beq {stored value : α} {entries : List (α × Nat)}
    (apart : ∀ other ∈ entries.map Prod.fst, (stored == other) = false)
    (same : (stored == value) = true) : ∀ entry ∈ entries, (entry.1 == value) = false := by
  intro entry member
  have alike : (entry.1 == stored) = (entry.1 == value) := BEq.congr_right same
  rw [← alike]
  exact BEq.symm_false (apart entry.1 (List.mem_map_of_mem member))

/-- Where the values are apart, the count of a value is the number of its occurrences. -/
theorem countIn_eq_count (value : α) {entries : List (α × Nat)}
    (apart : (entries.map Prod.fst).Pairwise fun value other => (value == other) = false) :
    countIn value entries = (expand entries).count value := by
  induction entries with
  | nil => rfl
  | cons entry rest inductionHypothesis =>
      obtain ⟨stored, n⟩ := entry
      obtain ⟨apart, restApart⟩ := List.pairwise_cons.mp apart
      rw [count_expand_cons, ← inductionHypothesis restApart]
      cases same : stored == value with
      | false => simp [countIn_cons_of_not_beq same]
      | true =>
          simp [countIn_cons_of_beq same, countIn_eq_zero (apart_of_beq apart same)]

/-- In a bag the count of a value that is equal to itself is its multiplicity. -/
theorem count_eq_count_elements {bag : Bag α} (wellFormed : WellFormed bag.entries) {value : α}
    (reflexive : (value == value) = true) :
    bag.count value = bag.elements.count (classOf value) := by
  rw [count_eq_countIn, countIn_eq_count value wellFormed.apart, elements_eq,
    count_classes reflexive]

omit [PartialEquivBEq α] in
/-- Taking a value out takes one occurrence from the first entry of the value. -/
theorem expand_removeEntry {value : α} {entries : List (α × Nat)} {entry : α × Nat}
    (positive : ∀ entry ∈ entries, 0 < entry.2)
    (first : entries.find? (fun entry => entry.1 == value) = some entry) :
    (expand entries).Perm (entry.1 :: expand (removeEntry value entries)) := by
  induction entries with
  | nil => cases first
  | cons head rest inductionHypothesis =>
      obtain ⟨stored, n⟩ := head
      obtain ⟨here, there⟩ := List.forall_mem_cons.mp positive
      cases same : stored == value with
      | true =>
          rw [List.find?_cons_of_pos (by simpa using same)] at first
          obtain rfl := Option.some.inj first
          obtain ⟨m, rfl⟩ := Nat.exists_eq_add_of_le' here
          rw [removeEntry, if_pos same]
          -- The entry is lowered, or taken out with its last copy.
          split
          · exact List.Perm.refl _
          · next last =>
            have none : m = 0 := by
              have : ¬1 < m + 1 := last
              omega
            rw [none]
            exact List.Perm.refl _
      | false =>
          rw [List.find?_cons_of_neg (by simp [same])] at first
          rw [removeEntry, if_neg (by simp [same]), expand_cons, expand_cons]
          exact ((inductionHypothesis there first).append_left _).trans List.perm_middle

omit [PartialEquivBEq α] in
/-- A value that is in a table has a first entry. -/
theorem exists_find? {value : α} {entries : List (α × Nat)}
    (found : entries.any (fun entry => entry.1 == value) = true) :
    ∃ entry, entries.find? (fun entry => entry.1 == value) = some entry ∧
      (entry.1 == value) = true := by
  rw [List.any_eq_true, ← List.find?_isSome, Option.isSome_iff_exists] at found
  obtain ⟨entry, first⟩ := found
  have same := List.find?_some first
  exact ⟨entry, first, same⟩

/-- Taking a value out that is in a table takes one copy of it out of the multiset. -/
theorem classes_removeEntry {value : α} {entries : List (α × Nat)}
    (positive : ∀ entry ∈ entries, 0 < entry.2)
    (found : entries.any (fun entry => entry.1 == value) = true) :
    classes (expand entries) = classOf value ::ₘ classes (expand (removeEntry value entries)) := by
  obtain ⟨entry, first, same⟩ := exists_find? found
  rw [classes_eq_of_perm (expand_removeEntry positive first), classes_cons, classOf_eq_of_beq same]

omit [PartialEquivBEq α] in
/-- Taking a value out that is not there changes nothing. -/
theorem removeEntry_eq_self {value : α} {entries : List (α × Nat)}
    (missing : entries.any (fun entry => entry.1 == value) = false) :
    removeEntry value entries = entries := by
  induction entries with
  | nil => rfl
  | cons entry rest inductionHypothesis =>
      obtain ⟨stored, n⟩ := entry
      rw [List.any_cons, Bool.or_eq_false_iff] at missing
      rw [removeEntry, if_neg (by simp [missing.1]), inductionHypothesis missing.2]

/-- All copies of a value are what a table loses with its entry. -/
theorem classes_eraseP (value : α) (entries : List (α × Nat)) :
    classes (expand entries) = Multiset.replicate (countIn value entries) (classOf value) +
      classes (expand (entries.eraseP fun entry => entry.1 == value)) := by
  induction entries with
  | nil => rfl
  | cons entry rest inductionHypothesis =>
      obtain ⟨stored, n⟩ := entry
      cases same : stored == value with
      | true =>
          rw [countIn_cons_of_beq same, List.eraseP_cons_of_pos (by simpa using same), expand_cons,
            classes_append, classes_replicate, classOf_eq_of_beq same]
      | false =>
          rw [countIn_cons_of_not_beq same, List.eraseP_cons_of_neg (by simp [same]), expand_cons,
            expand_cons, classes_append, classes_append, inductionHypothesis]
          exact add_left_comm _ _ _

end Counts

end RootFinding.Bag
