import RootFinding.Bag.Matching
import RootFinding.Proofs.Bag.Reachable

/-!
# When the greedy matching depends on the order

An element takes an equal partner if one is left, and otherwise the first that the relation allows.
What it takes may be what another element needs: whether the matching succeeds then depends on the
order of both tables. It does not if the elements are unambiguous: two that could take the same
partner could take each other's. Then the matching succeeds exactly if there is a pairing, and
elements that are ambiguous fail in one order and succeed in the other.
-/

namespace RootFinding.Bag

open Outcome

variable {α : Type} [BEq α]

/-- Values that can be partners. -/
def Pairs (related : α → α → Bool) (x y : α) : Prop := (x == y) = true ∨ related x y = true

/-- A pairing of the values of two lists, one to one. -/
def Paired (related : α → α → Bool) (values others : List α) : Prop :=
  ∃ partners : List α, partners.Perm others ∧ List.Forall₂ (Pairs related) values partners

/-- Of values that could both take one partner, the one could take the partner that the other has,
unless the other is equal to its own. -/
def Unambiguous (related : α → α → Bool) (left right : α → Prop) : Prop :=
  ∀ x x' y y', left x → left x' → right y → right y' →
    Pairs related x y → Pairs related x' y → Pairs related x y' →
      Pairs related x' y' ∨ (x == y') = true

/-- A relation that looks at values up to `==`. -/
def Congruent (related : α → α → Bool) : Prop :=
  ∀ ⦃x x' y y' : α⦄, (x == x') = true → (y == y') = true → related x y = related x' y'

section Pairing

variable [PartialEquivBEq α] {related : α → α → Bool}

/-- Classes whose values can be partners. -/
def PairsClass (related : α → α → Bool) (key other : Class α) : Prop :=
  ∃ x y, classOf x = key ∧ classOf y = other ∧ Pairs related x y

/-- Whether values are possible partners depends on them only up to `==`. -/
theorem Pairs.congr (congruent : Congruent related) {x x' y y' : α} (sameX : (x == x') = true)
    (sameY : (y == y') = true) (paired : Pairs related x y) : Pairs related x' y' := by
  rcases paired with same | allowed
  · exact Or.inl (BEq.trans (BEq.trans (BEq.symm sameX) same) sameY)
  · exact Or.inr (by rwa [← congruent sameX sameY])

/-- Classes are possible partners exactly if their values are. -/
theorem pairsClass_iff (congruent : Congruent related) {x y : α} (selfX : (x == x) = true)
    (selfY : (y == y) = true) : PairsClass related (classOf x) (classOf y) ↔ Pairs related x y := by
  constructor
  · rintro ⟨x', y', sameX, sameY, paired⟩
    exact paired.congr congruent ((classOf_eq_iff_beq selfX).mp sameX)
      ((classOf_eq_iff_beq selfY).mp sameY)
  · exact fun paired => ⟨x, y, rfl, rfl, paired⟩

omit [BEq α] [PartialEquivBEq α] in
/-- Lists whose multisets are related element by element are so in a suitable order. -/
theorem rel_coe_iff {r : α → α → Prop} {values others : List α} :
    Multiset.Rel r (values : Multiset α) (others : Multiset α) ↔
      ∃ partners : List α, partners.Perm others ∧ List.Forall₂ r values partners := by
  induction values generalizing others with
  | nil =>
      rw [Multiset.coe_nil, Multiset.rel_zero_left, Multiset.coe_eq_zero]
      constructor
      · rintro rfl
        exact ⟨[], List.Perm.refl _, List.Forall₂.nil⟩
      · rintro ⟨partners, sameValues, none⟩
        cases none
        exact sameValues.nil_eq.symm
  | cons first rest inductionHypothesis =>
      rw [← Multiset.cons_coe, Multiset.rel_cons_left]
      constructor
      · rintro ⟨partner, left, here, there, parts⟩
        obtain ⟨left, rfl⟩ := Quot.exists_rep left
        obtain ⟨partners, sameValues, paired⟩ := inductionHypothesis.mp there
        refine ⟨partner :: partners, ?_, List.Forall₂.cons here paired⟩
        exact (sameValues.cons partner).trans (Multiset.coe_eq_coe.mp parts.symm)
      · rintro ⟨_, sameValues, _ | ⟨here, there⟩⟩
        rename_i partner partners
        exact ⟨partner, partners, here, inductionHypothesis.mpr ⟨partners, List.Perm.refl _, there⟩,
          Multiset.coe_eq_coe.mpr sameValues.symm⟩

/-- A pairing of values is one of their classes. -/
theorem rel_classes_iff (congruent : Congruent related) {values others : List α}
    (selfValues : ∀ x ∈ values, (x == x) = true) (selfOthers : ∀ y ∈ others, (y == y) = true) :
    Multiset.Rel (PairsClass related) (classes values) (classes others) ↔
      Paired related values others := by
  rw [classes, classes, ← Multiset.map_coe, ← Multiset.map_coe, Multiset.rel_map, Paired,
    ← rel_coe_iff]
  constructor
  · exact fun paired => paired.mono fun x memberX y memberY pairs =>
      (pairsClass_iff congruent (selfValues x memberX) (selfOthers y memberY)).mp pairs
  · exact fun paired => paired.mono fun x memberX y memberY pairs =>
      (pairsClass_iff congruent (selfValues x memberX) (selfOthers y memberY)).mpr pairs

omit [BEq α] [PartialEquivBEq α] in
/-- An element and a partner that it can take are no loss to a pairing, if whoever would have had
the partner can have the element's. -/
theorem rel_of_rel_cons {κ : Type} {r : κ → κ → Prop} {key partner : κ} {s t : Multiset κ}
    (paired : Multiset.Rel r (key ::ₘ s) (partner ::ₘ t))
    (exchange : ∀ other ∈ s, ∀ spare ∈ t, r other partner → r key spare → r other spare) :
    Multiset.Rel r s t := by
  obtain ⟨spare, left, keyPaired, others, parts⟩ := Multiset.rel_cons_left.mp paired
  rcases Multiset.cons_eq_cons.mp parts with ⟨rfl, rfl⟩ | ⟨_, common, rfl, rfl⟩
  · exact others
  · obtain ⟨other, remaining, otherPaired, rest, rfl⟩ := Multiset.rel_cons_right.mp others
    exact Multiset.Rel.cons (exchange other (Multiset.mem_cons_self _ _) spare
      (Multiset.mem_cons_self _ _) otherPaired keyPaired) rest

end Pairing

section Greedy

variable [PartialEquivBEq α] {related : α → α → Bool}

omit [PartialEquivBEq α] in
/-- The first entry of a value that a table holds is its own. -/
theorem find?_of_mem {entries : List (α × Nat)} (wellFormed : WellFormed entries)
    (self : SelfEqual entries) {entry : α × Nat} (member : entry ∈ entries) :
    entries.find? (fun other => other.1 == entry.1) = some entry := by
  induction entries with
  | nil => cases member
  | cons head rest inductionHypothesis =>
      obtain ⟨apart, _, _, restWellFormed⟩ := wellFormed_cons.mp wellFormed
      obtain ⟨selfHead, selfRest⟩ := List.forall_mem_cons.mp self
      rcases List.mem_cons.mp member with rfl | there
      · exact List.find?_cons_of_pos selfHead
      · have other := apart entry.1 (List.mem_map_of_mem there)
        rw [List.find?_cons_of_neg (by simp [other]),
          inductionHypothesis restWellFormed selfRest there]

omit [PartialEquivBEq α] in
/-- What is left is a bag without some partner. -/
theorem exists_removed_of_pairOff {bag after : Bag α} {value : α}
    (taken : pairOff related bag value = some after) :
    ∃ partner, after = (bag.remove partner).1 := by
  obtain ⟨partner, _, rfl⟩ := Option.map_eq_some_iff.mp taken
  exact ⟨partner, rfl⟩

/-- An element that finds a partner takes it out of what is left, and takes an equal one if there
is one. -/
theorem exists_partner_of_pairOff {bag after : Bag α} {value : α}
    (wellFormed : WellFormed bag.entries) (self : SelfEqual bag.entries)
    (taken : pairOff related bag value = some after) :
    ∃ entry ∈ bag.entries, Pairs related value entry.1 ∧
      bag.toList.Perm (entry.1 :: after.toList) ∧
      (0 < bag.count value → (value == entry.1) = true) := by
  obtain ⟨partner, chosen, rfl⟩ := Option.map_eq_some_iff.mp taken
  have takes {entry : α × Nat}
      (first : bag.entries.find? (fun other => other.1 == partner) = some entry) :
      bag.toList.Perm (entry.1 :: (bag.remove partner).1.toList) := by
    rw [toList_eq, toList_eq]
    exact expand_removeEntry wellFormed.positive first
  rw [partner?] at chosen
  split at chosen
  · next found =>
    obtain rfl := Option.some.inj chosen
    obtain ⟨entry, first, same⟩ := exists_find? found
    exact ⟨entry, List.mem_of_find?_eq_some first, Or.inl (BEq.symm same), takes first,
      fun _ => BEq.symm same⟩
  · next missing =>
    obtain ⟨entry, found, rfl⟩ := Option.map_eq_some_iff.mp chosen
    have member := List.mem_of_find?_eq_some found
    have allowed := List.find?_some found
    refine ⟨entry, member, Or.inr allowed, takes (find?_of_mem wellFormed self member),
      fun occurs => ?_⟩
    rw [count_pos_iff wellFormed, ← List.any_eq_true] at occurs
    exact absurd occurs missing

/-- A bag without entries has no elements. -/
theorem elements_eq_zero_iff {bag : Bag α} (wellFormed : WellFormed bag.entries) :
    bag.elements = 0 ↔ bag.isEmpty = true := by
  rw [← Multiset.card_eq_zero, card_elements, isEmpty_iff_size wellFormed, size_eq]
  constructor
  · intro none
    rw [none]
    rfl
  · intro none
    split at none
    · exact Except.ok.inj none
    · cases none

/-- An element without a partner can be paired with nothing that is left. -/
theorem not_pairs_of_pairOff {bag : Bag α} {value : α} (none : pairOff related bag value = none) :
    ∀ entry ∈ bag.entries, ¬Pairs related value entry.1 := by
  rw [pairOff, Option.map_eq_none_iff, partner?] at none
  split at none
  · cases none
  · next missing =>
    rw [Option.map_eq_none_iff, List.find?_eq_none] at none
    rintro entry member (same | allowed)
    · exact missing (List.any_eq_true.mpr ⟨entry, member, BEq.symm same⟩)
    · exact none entry member allowed

/-- A matching that succeeds is a pairing. -/
theorem paired_of_foldlM_pairOff {values : List α} {bag : Bag α}
    (wellFormed : WellFormed bag.entries) (self : SelfEqual bag.entries)
    (matched : (values.foldlM (pairOff related) bag).any isEmpty = true) :
    Paired related values bag.toList := by
  induction values generalizing bag with
  | nil =>
      have empty : bag.entries = [] := List.isEmpty_iff.mp matched
      refine ⟨[], ?_, List.Forall₂.nil⟩
      rw [toList_eq, empty, expand_nil]
  | cons value rest inductionHypothesis =>
      rw [List.foldlM_cons] at matched
      cases taken : pairOff related bag value with
      | none =>
          rw [taken] at matched
          cases matched
      | some after =>
          rw [taken] at matched
          obtain ⟨entry, _, pairs, parts, _⟩ := exists_partner_of_pairOff wellFormed self taken
          obtain ⟨partner, rfl⟩ := exists_removed_of_pairOff taken
          obtain ⟨partners, rearranged, others⟩ :=
            inductionHypothesis (wellFormed_removeEntry partner wellFormed)
              (selfEqual_removeEntry partner self) matched
          exact ⟨entry.1 :: partners, (rearranged.cons entry.1).trans parts.symm,
            List.Forall₂.cons pairs others⟩

/-- Bags that are matched have a pairing of their elements, whatever the relation is. -/
theorem paired_of_pairsUnder {a b : Bag α} (wellFormed : WellFormed b.entries)
    (self : SelfEqual b.entries) (matched : a.pairsUnder related b = .ok true) :
    Paired related a.toList b.toList := by
  rw [pairsUnder_eq] at matched
  obtain ⟨_, _, matched⟩ := bind_eq_ok.mp matched
  obtain ⟨_, _, matched⟩ := bind_eq_ok.mp matched
  rw [pure_eq_ok, Except.ok.injEq, Bool.and_eq_true] at matched
  exact paired_of_foldlM_pairOff wellFormed self matched.2

/-- Unambiguous elements that have a pairing are matched, in whatever order. -/
theorem foldlM_pairOff_of_rel (congruent : Congruent related) {left right : α → Prop}
    (unambiguous : Unambiguous related left right) {values : List α} {bag : Bag α}
    (wellFormed : WellFormed bag.entries) (self : SelfEqual bag.entries)
    (selfValues : ∀ x ∈ values, (x == x) = true) (inLeft : ∀ x ∈ values, left x)
    (inRight : ∀ entry ∈ bag.entries, right entry.1)
    (paired : Multiset.Rel (PairsClass related) (classes values) bag.elements) :
    (values.foldlM (pairOff related) bag).any isEmpty = true := by
  induction values generalizing bag with
  | nil => exact (elements_eq_zero_iff wellFormed).mp (Multiset.rel_zero_left.mp paired)
  | cons value rest inductionHypothesis =>
      obtain ⟨selfValue, selfRest⟩ := List.forall_mem_cons.mp selfValues
      obtain ⟨valueLeft, restLeft⟩ := List.forall_mem_cons.mp inLeft
      rw [List.foldlM_cons]
      rw [classes_cons] at paired
      cases taken : pairOff related bag value with
      | none =>
          -- The partner that the pairing gives the value would have been found.
          obtain ⟨_, _, pairs, _, parts⟩ := Multiset.rel_cons_left.mp paired
          have member : _ ∈ bag.elements := parts ▸ Multiset.mem_cons_self _ _
          obtain ⟨entry, isEntry, rfl⟩ := exists_entry_of_mem_elements member
          have possible := (pairsClass_iff congruent selfValue (self entry isEntry)).mp pairs
          exact absurd possible (not_pairs_of_pairOff taken entry isEntry)
      | some after =>
          obtain ⟨entry, isEntry, takes, taking, equalIfAny⟩ :=
            exists_partner_of_pairOff wellFormed self taken
          obtain ⟨partner, rfl⟩ := exists_removed_of_pairOff taken
          have parts : bag.elements = classOf entry.1 ::ₘ (bag.remove partner).1.elements :=
            classes_eq_of_perm taking
          refine inductionHypothesis (wellFormed_removeEntry partner wellFormed)
            (selfEqual_removeEntry partner self) selfRest restLeft
            (forall_removeEntry right partner inRight) ?_
          rw [parts] at paired
          -- Exchange: whoever had the partner that was taken gets the one that the value had.
          refine rel_of_rel_cons paired fun other isOther spare isSpare otherPairs valuePairs => ?_
          obtain ⟨rival, isRival, rfl⟩ := List.mem_map.mp isOther
          have spareIn : spare ∈ bag.elements := parts ▸ Multiset.mem_cons_of_mem isSpare
          obtain ⟨spareEntry, isSpareEntry, rfl⟩ := exists_entry_of_mem_elements spareIn
          have selfRival := selfRest rival isRival
          have selfSpare := self spareEntry isSpareEntry
          have rivalTakes := (pairsClass_iff congruent selfRival (self entry isEntry)).mp otherPairs
          have valueSpare := (pairsClass_iff congruent selfValue selfSpare).mp valuePairs
          rcases unambiguous value rival entry.1 spareEntry.1 valueLeft (restLeft rival isRival)
            (inRight entry isEntry) (inRight spareEntry isSpareEntry) takes rivalTakes
            valueSpare with possible | equal
          · exact (pairsClass_iff congruent selfRival selfSpare).mpr possible
          · -- The value had an equal, so that an equal was taken, too.
            have occurs : 0 < bag.count value :=
              (count_pos_iff wellFormed).mpr ⟨spareEntry, isSpareEntry, BEq.symm equal⟩
            have same : classOf entry.1 = classOf spareEntry.1 :=
              classOf_eq_of_beq (BEq.trans (BEq.symm (equalIfAny occurs)) equal)
            rwa [same] at otherPairs

end Greedy

section Order

/-- A bag that a run arrives at, with elements from a set. -/
structure ReachableIn (points : α → Prop) (bag : Bag α) : Prop where
  reached : Reachable bag
  within : ∀ x ∈ bag.toList, points x

variable [PartialEquivBEq α] {related : α → α → Bool} {points left right : α → Prop}

/-- The values of the entries are elements. -/
theorem ReachableIn.entries {bag : Bag α} (reached : ReachableIn points bag) :
    ∀ entry ∈ bag.entries, points entry.1 := by
  intro entry member
  apply reached.within
  rw [toList_eq, expand, List.mem_flatMap]
  refine ⟨entry, member, List.mem_replicate.mpr ⟨?_, rfl⟩⟩
  exact (reached.reached.wellFormed.positive entry member).ne'

/-- A bag of points that are equal to themselves holds only such values. -/
theorem ReachableIn.selfEqual (self : ∀ x, points x → (x == x) = true) {bag : Bag α}
    (reached : ReachableIn points bag) : SelfEqual bag.entries :=
  fun entry member => self entry.1 (reached.entries entry member)

/-- Equal bags have one multiset, whatever their tables. -/
theorem ReachableIn.elements_eq_of_beq (self : ∀ x, points x → (x == x) = true) {a b : Bag α}
    (reached : ReachableIn points a) (reachedToo : ReachableIn points b) (same : (a == b) = true) :
    a.elements = b.elements :=
  (beq_iff_elements reached.reached.wellFormed reachedToo.reached.wellFormed
    (reached.selfEqual self) (reachedToo.selfEqual self)).mp same

variable (congruent : Congruent related)
variable (selfLeft : ∀ x, left x → (x == x) = true) (selfRight : ∀ y, right y → (y == y) = true)
include congruent selfLeft selfRight

/-- The elements of two bags have a pairing exactly if their multisets have. -/
theorem rel_elements_iff {a b : Bag α} (reachedA : ReachableIn left a)
    (reachedB : ReachableIn right b) :
    Multiset.Rel (PairsClass related) a.elements b.elements ↔ Paired related a.toList b.toList :=
  rel_classes_iff congruent (fun x member => selfLeft x (reachedA.within x member))
    fun y member => selfRight y (reachedB.within y member)

/-- Unambiguous elements are matched exactly if their multisets have a pairing. -/
theorem foldlM_pairOff_iff (unambiguous : Unambiguous related left right) {a b : Bag α}
    (reachedA : ReachableIn left a) (reachedB : ReachableIn right b) :
    (a.toList.foldlM (pairOff related) b).any isEmpty = true ↔
      Multiset.Rel (PairsClass related) a.elements b.elements := by
  have wellFormed := reachedB.reached.wellFormed
  have self := reachedB.selfEqual selfRight
  constructor
  · intro matched
    rw [rel_elements_iff congruent selfLeft selfRight reachedA reachedB]
    exact paired_of_foldlM_pairOff wellFormed self matched
  · exact foldlM_pairOff_of_rel congruent unambiguous wellFormed self
      (fun x member => selfLeft x (reachedA.within x member)) reachedA.within reachedB.entries

/-- A pairing of unambiguous elements is found. -/
theorem pairsUnder_of_paired (unambiguous : Unambiguous related left right) {a b : Bag α}
    (reachedA : ReachableIn left a) (reachedB : ReachableIn right b) {n : Nat}
    (counted : a.size = .ok n) (paired : Paired related a.toList b.toList) :
    a.pairsUnder related b = .ok true := by
  have pairedClasses := (rel_elements_iff congruent selfLeft selfRight reachedA reachedB).mpr paired
  have sameSize : b.size = a.size := by
    rw [size_eq, size_eq, ← card_elements, ← card_elements,
      Multiset.card_eq_card_of_rel pairedClasses]
  have matched := (foldlM_pairOff_iff congruent selfLeft selfRight unambiguous reachedA
    reachedB).mpr pairedClasses
  rw [pairsUnder_eq, sameSize, counted, matched]
  simp only [ok_bind, beq_self_eq_true, Bool.and_true]
  rfl

/-- The order of the tables of unambiguous elements plays no part. -/
theorem pairsUnder_congr (unambiguous : Unambiguous related left right) {a a' b b' : Bag α}
    (reachedA : ReachableIn left a) (reachedA' : ReachableIn left a')
    (reachedB : ReachableIn right b) (reachedB' : ReachableIn right b')
    (sameA : (a == a') = true) (sameB : (b == b') = true) :
    a.pairsUnder related b = a'.pairsUnder related b' := by
  have elementsA := reachedA.elements_eq_of_beq selfLeft reachedA' sameA
  have elementsB := reachedB.elements_eq_of_beq selfRight reachedB' sameB
  have sizes {c d : Bag α} (same : c.elements = d.elements) : c.size = d.size := by
    rw [size_eq, size_eq, ← card_elements, ← card_elements, same]
  have matched : (a.toList.foldlM (pairOff related) b).any isEmpty =
      (a'.toList.foldlM (pairOff related) b').any isEmpty := by
    rw [Bool.eq_iff_iff, foldlM_pairOff_iff congruent selfLeft selfRight unambiguous reachedA
      reachedB, foldlM_pairOff_iff congruent selfLeft selfRight unambiguous reachedA' reachedB',
      elementsA, elementsB]
  rw [pairsUnder_eq, pairsUnder_eq, sizes elementsA, sizes elementsB, matched]

end Order

section Ambiguity

variable {related : α → α → Bool}

/-- Two values that are not equal have an entry each, in the order in which they come. -/
theorem ofList_pair {x y : α} (apart : (x == y) = false) :
    ofList [x, y] = .ok ⟨[(x, 1), (y, 1)]⟩ := by
  have first : (∅ : Bag α).insert x = .ok ⟨[(x, 1)]⟩ := rfl
  have second : (⟨[(x, 1)]⟩ : Bag α).insert y = .ok ⟨[(x, 1), (y, 1)]⟩ := by
    rw [insert, insertMany, if_neg one_ne_zero, insertEntry, apart]
    rfl
  rw [ofList, insertAll, List.foldlM_cons, first, ok_bind, List.foldlM_cons, second]
  rfl

variable [PartialEquivBEq α]

/-- Of two values, an element takes the first if it can, unless it is equal to the second. -/
theorem pairOff_pair {x y y' : α} (selfY : (y == y) = true) (pairs : Pairs related x y)
    (other : (x == y') = false) :
    pairOff related ⟨[(y, 1), (y', 1)]⟩ x = some ⟨[(y', 1)]⟩ := by
  have otherToo : (y' == x) = false := BEq.symm_false other
  have takes (partner : α) (same : (y == partner) = true) :
      ((⟨[(y, 1), (y', 1)]⟩ : Bag α).remove partner).1 = ⟨[(y', 1)]⟩ := by
    simp [remove, removeEntry, same]
  rw [pairOff, partner?]
  by_cases same : (y == x) = true
  · simp [contains, same, takes x same]
  · have allowed : related x y = true := pairs.resolve_left fun equal => same (BEq.symm equal)
    simp [contains, same, otherToo, allowed, takes y selfY]

/-- A last value is taken by what it can be paired with. -/
theorem pairOff_single {x y : α} (selfY : (y == y) = true) (pairs : Pairs related x y) :
    pairOff related ⟨[(y, 1)]⟩ x = some ∅ := by
  have takes (partner : α) (same : (y == partner) = true) :
      ((⟨[(y, 1)]⟩ : Bag α).remove partner).1 = ∅ := by
    simp [remove, removeEntry, same]
    rfl
  rw [pairOff, partner?]
  by_cases same : (y == x) = true
  · simp [contains, same, takes x same]
  · have allowed : related x y = true := pairs.resolve_left fun equal => same (BEq.symm equal)
    simp [contains, same, allowed, takes y selfY]

/-- A last value is not taken by anything else. -/
theorem pairOff_single_none {x y : α} (alone : ¬Pairs related x y) :
    pairOff related ⟨[(y, 1)]⟩ x = none := by
  obtain ⟨unequal, forbidden⟩ := not_or.mp alone
  have other : (y == x) = false := BEq.symm_false (Bool.eq_false_iff.mpr unequal)
  simp [pairOff, partner?, contains, other, Bool.eq_false_iff.mpr forbidden]

omit [PartialEquivBEq α] in
/-- A bag of two values has them as elements. -/
theorem reachableIn_pair {points : α → Prop} {x y : α} (apart : (x == y) = false) (inX : points x)
    (inY : points y) : ReachableIn points ⟨[(x, 1), (y, 1)]⟩ where
  reached := .ofList (ofList_pair apart)
  within z member := by
    rw [toList_eq] at member
    have either : z = x ∨ z = y := by simpa using member
    rcases either with rfl | rfl
    · exact inX
    · exact inY

/-- Two values in either order make equal bags. -/
theorem beq_pair_swap {x y : α} (apart : (x == y) = false) (selfX : (x == x) = true)
    (selfY : (y == y) = true) :
    ((⟨[(x, 1), (y, 1)]⟩ : Bag α) == ⟨[(y, 1), (x, 1)]⟩) = true := by
  let either (z : α) : Prop := z = x ∨ z = y
  have self : ∀ z, either z → (z == z) = true := by
    rintro z (rfl | rfl)
    · exact selfX
    · exact selfY
  have first : ReachableIn either ⟨[(x, 1), (y, 1)]⟩ :=
    reachableIn_pair apart (Or.inl rfl) (Or.inr rfl)
  have second : ReachableIn either ⟨[(y, 1), (x, 1)]⟩ :=
    reachableIn_pair (BEq.symm_false apart) (Or.inr rfl) (Or.inl rfl)
  rw [beq_iff_elements first.reached.wellFormed second.reached.wellFormed (first.selfEqual self)
    (second.selfEqual self), elements_ofList (ofList_pair apart),
    elements_ofList (ofList_pair (BEq.symm_false apart))]
  exact classes_eq_of_perm (List.Perm.swap _ _ _)

variable {x x' y y' : α} (selfY : (y == y) = true) (selfY' : (y' == y') = true)
variable (takes : Pairs related x y) (takesToo : Pairs related x' y) (spare : Pairs related x y')
variable (stuck : ¬Pairs related x' y') (other : (x == y') = false)
include selfY selfY' takes takesToo spare stuck other

/-- An element that comes first and takes what another needs leaves it without a partner. If it
comes second, it takes the spare one. -/
theorem pairsUnder_ambiguous :
    (⟨[(x, 1), (x', 1)]⟩ : Bag α).pairsUnder related ⟨[(y, 1), (y', 1)]⟩ = .ok false ∧
      (⟨[(x', 1), (x, 1)]⟩ : Bag α).pairsUnder related ⟨[(y, 1), (y', 1)]⟩ = .ok true := by
  have otherToo : (x' == y') = false := Bool.eq_false_iff.mpr fun same => stuck (Or.inl same)
  have elements (u v : α) : (⟨[(u, 1), (v, 1)]⟩ : Bag α).toList = [u, v] := toList_eq _
  have sizes (u v : α) : (⟨[(u, 1), (v, 1)]⟩ : Bag α).size = .ok 2 := rfl
  constructor
  · rw [pairsUnder_eq, elements, sizes, sizes, List.foldlM_cons, pairOff_pair selfY takes other,
      Option.bind_eq_bind, Option.bind_some, List.foldlM_cons, pairOff_single_none stuck]
    rfl
  · rw [pairsUnder_eq, elements, sizes, sizes, List.foldlM_cons, pairOff_pair selfY takesToo
      otherToo, Option.bind_eq_bind, Option.bind_some, List.foldlM_cons,
      pairOff_single selfY' spare]
    rfl

end Ambiguity

section Exactness

variable [PartialEquivBEq α] {related : α → α → Bool} {left right : α → Prop}

/-- Two elements that are ambiguous have a bag in which the first that comes decides. -/
theorem unambiguous_of_agrees (congruent : Congruent related)
    (selfLeft : ∀ x, left x → (x == x) = true) (selfRight : ∀ y, right y → (y == y) = true)
    (agrees : ∀ a a' b : Bag α, ReachableIn left a → ReachableIn left a' → ReachableIn right b →
      (a == a') = true → a.pairsUnder related b = a'.pairsUnder related b) :
    Unambiguous related left right := by
  intro x x' y y' leftX leftX' rightY rightY' takes takesToo spare
  by_contra ambiguous
  obtain ⟨stuck, other⟩ := not_or.mp ambiguous
  have selfX := selfLeft x leftX
  have selfY := selfRight y rightY
  have selfY' := selfRight y' rightY'
  have apartX : (x == x') = false :=
    Bool.eq_false_iff.mpr fun same => stuck (spare.congr congruent same selfY')
  have apartY : (y == y') = false :=
    Bool.eq_false_iff.mpr fun same => stuck (takesToo.congr congruent (selfLeft x' leftX') same)
  obtain ⟨first, second⟩ := pairsUnder_ambiguous selfY selfY' takes takesToo spare stuck
    (Bool.eq_false_iff.mpr other)
  have same := agrees _ _ _ (reachableIn_pair apartX leftX leftX')
    (reachableIn_pair (BEq.symm_false apartX) leftX' leftX) (reachableIn_pair apartY rightY rightY')
    (beq_pair_swap apartX selfX (selfLeft x' leftX'))
  rw [first, second] at same
  cases same

end Exactness

end RootFinding.Bag
