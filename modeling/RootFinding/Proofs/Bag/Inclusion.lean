import RootFinding.Proofs.Bag.Algebra

/-!
# Inclusion of bags

Inclusion looks at the entries of one bag, and strict inclusion at whether two tables are equal. As
no table has an entry that is empty, both are about all counts: inclusion is the order of multisets.
It is an order up to equality of bags, the operations on two bags tell whether it holds, and they
keep it.
-/

namespace RootFinding.Bag

variable {α : Type} [BEq α] [EquivBEq α]

section Counts

variable {a b : Bag α} (wellFormedA : WellFormed a.entries) (wellFormedB : WellFormed b.entries)
include wellFormedA

/-- A bag without entries is one in which nothing occurs. -/
theorem isEmpty_iff_count : a.isEmpty = true ↔ ∀ value, a.count value = 0 := by
  rw [isEmpty, List.isEmpty_iff]
  constructor
  · intro empty value
    rw [count_eq_countIn, empty, countIn_nil]
  · intro absent
    rw [List.eq_nil_iff_forall_not_mem]
    intro entry member
    have occurs := wellFormedA.positive entry member
    rw [← count_of_mem wellFormedA (selfEqual _) member, absent entry.1] at occurs
    exact Nat.lt_irrefl 0 occurs

/-- Inclusion compares the counts of all values, though only those with an entry are looked at. -/
theorem isSubset_iff_count (b : Bag α) :
    a.isSubset b = true ↔ ∀ value, a.count value ≤ b.count value := by
  change (a.entries.all fun entry => decide (entry.2 ≤ b.count entry.1)) = true ↔ _
  simp only [List.all_eq_true, decide_eq_true_eq]
  constructor
  · intro included value
    by_cases occurs : 0 < a.count value
    · obtain ⟨entry, member, same⟩ := (count_pos_iff wellFormedA).mp occurs
      rw [← count_congr a same, ← count_congr b same,
        count_of_mem wellFormedA (selfEqual _) member]
      exact included entry member
    · omega
  · intro fewer entry member
    rw [← count_of_mem wellFormedA (selfEqual _) member]
    exact fewer entry.1

include wellFormedB

/-- A bag is included in another exactly if its multiset is. -/
theorem isSubset_iff_elements : a.isSubset b = true ↔ a.elements ≤ b.elements := by
  rw [isSubset_iff_count wellFormedA]
  constructor
  · exact elements_le wellFormedA wellFormedB (selfEqual _)
  · intro within value
    rw [count_eq_count_elements wellFormedA BEq.rfl, count_eq_count_elements wellFormedB BEq.rfl]
    exact Multiset.count_le_of_le _ within

/-- Bags are equal exactly if each is included in the other. -/
theorem beq_iff_isSubset :
    (a == b) = true ↔ a.isSubset b = true ∧ b.isSubset a = true := by
  rw [beq_iff_count wellFormedA wellFormedB (selfEqual _) (selfEqual _),
    isSubset_iff_count wellFormedA, isSubset_iff_count wellFormedB, ← forall_and]
  exact forall_congr' fun value => Nat.le_antisymm_iff

/-- A bag is strictly included if it is included and not the other way round. -/
theorem isStrictSubset_iff :
    a.isStrictSubset b = true ↔ a.isSubset b = true ∧ ¬b.isSubset a = true := by
  have differs : (a != b) = true ↔ ¬(a == b) = true := by
    rw [bne, Bool.not_eq_true', Bool.not_eq_true]
  rw [isStrictSubset, Bool.and_eq_true, differs, beq_iff_isSubset wellFormedA wellFormedB]
  exact and_congr_right fun included => not_congr (and_iff_right included)

/-- A bag that is included is strictly so if some count is smaller. -/
theorem isStrictSubset_iff_count :
    a.isStrictSubset b = true ↔
      a.isSubset b = true ∧ ∃ value, a.count value < b.count value := by
  rw [isStrictSubset_iff wellFormedA wellFormedB, isSubset_iff_count wellFormedB, not_forall]
  exact and_congr_right fun _ => exists_congr fun value => Nat.not_le

end Counts

section Order

variable {a b c : Bag α} (wellFormedA : WellFormed a.entries) (wellFormedB : WellFormed b.entries)
variable (wellFormedC : WellFormed c.entries)

/-- Every bag is included in itself. -/
theorem isSubset_refl (wellFormed : WellFormed a.entries) : a.isSubset a = true :=
  (isSubset_iff_count wellFormed a).mpr fun _ => Nat.le_refl _

include wellFormedA wellFormedB

/-- Inclusion is transitive. -/
theorem isSubset_trans (first : a.isSubset b = true) (second : b.isSubset c = true) :
    a.isSubset c = true := by
  rw [isSubset_iff_count wellFormedA] at first ⊢
  rw [isSubset_iff_count wellFormedB] at second
  exact fun value => (first value).trans (second value)

include wellFormedC

/-- Strict inclusion is transitive. -/
theorem isStrictSubset_trans (first : a.isStrictSubset b = true)
    (second : b.isStrictSubset c = true) : a.isStrictSubset c = true := by
  obtain ⟨within, _⟩ := (isStrictSubset_iff wellFormedA wellFormedB).mp first
  obtain ⟨withinToo, strict⟩ := (isStrictSubset_iff wellFormedB wellFormedC).mp second
  rw [isStrictSubset_iff wellFormedA wellFormedC]
  exact ⟨isSubset_trans wellFormedA wellFormedB within withinToo,
    fun back => strict (isSubset_trans wellFormedC wellFormedA back within)⟩

end Order

/-- Two computations give bags of which the first is included in the second. -/
def Included (first second : Except Fault (Bag α)) : Prop :=
  ∃ a b, first = .ok a ∧ second = .ok b ∧ a.isSubset b = true

section Computations

variable {first second : Except Fault (Bag α)} {counts others : α → Nat}
variable (given : Gives first counts)
include given

/-- Computations that give smaller counts give included bags. -/
theorem Gives.included (givenToo : Gives second others)
    (fewer : ∀ value, counts value ≤ others value) : Included first second := by
  obtain ⟨a, rfl, wellFormed, counted⟩ := given
  obtain ⟨b, rfl, _, countedToo⟩ := givenToo
  refine ⟨a, b, rfl, rfl, (isSubset_iff_count wellFormed b).mpr fun value => ?_⟩
  rw [counted, countedToo]
  exact fewer value

/-- Whether the result of a computation is a certain bag can be told from the counts. -/
theorem Gives.exists_beq_iff {b : Bag α} (wellFormed : WellFormed b.entries) :
    ∃ a, first = .ok a ∧ ((a == b) = true ↔ ∀ value, counts value = b.count value) := by
  obtain ⟨a, rfl, wellFormedA, counted⟩ := given
  refine ⟨a, rfl, ?_⟩
  rw [beq_iff_count wellFormedA wellFormed (selfEqual _) (selfEqual _)]
  exact forall_congr' fun value => by rw [counted]

/-- Whether the result of a computation is empty can be told from the counts. -/
theorem Gives.exists_isEmpty_iff :
    ∃ a, first = .ok a ∧ (a.isEmpty = true ↔ ∀ value, counts value = 0) := by
  obtain ⟨a, rfl, wellFormed, counted⟩ := given
  refine ⟨a, rfl, ?_⟩
  rw [isEmpty_iff_count wellFormed]
  exact forall_congr' fun value => by rw [counted]

end Computations

section Characterizations

variable {a b : Bag α} (wellFormedA : WellFormed a.entries) (wellFormedB : WellFormed b.entries)
include wellFormedA

/-- An included bag is one of which nothing is left without the other. -/
theorem exists_complement_isEmpty_iff (b : Bag α) :
    ∃ left, a.complement b = .ok left ∧ (a.isSubset b = true ↔ left.isEmpty = true) := by
  obtain ⟨left, given, empty⟩ := (gives_complement wellFormedA b).exists_isEmpty_iff
  refine ⟨left, given, ?_⟩
  rw [empty, isSubset_iff_count wellFormedA]
  exact forall_congr' fun value => Nat.sub_eq_zero_iff_le.symm

include wellFormedB

/-- An included bag is what it has in common with the other. -/
theorem exists_intersection_beq_iff :
    ∃ common, a.intersection b = .ok common ∧ (a.isSubset b = true ↔ (common == a) = true) := by
  obtain ⟨common, given, same⟩ :=
    (gives_intersection wellFormedA wellFormedB).exists_beq_iff wellFormedA
  refine ⟨common, given, ?_⟩
  rw [same, isSubset_iff_count wellFormedA]
  exact forall_congr' fun value => min_eq_left_iff.symm

/-- An included bag is one to which what the other has beyond it can be added to make the other. The
sums are the larger counts, so that they fit a counter. -/
theorem exists_union_complement_beq_iff :
    ∃ sum, (do a.union (← b.complement a)) = .ok sum ∧
      (a.isSubset b = true ↔ (sum == b) = true) := by
  have filled := (gives_ok wellFormedA).union (gives_complement wellFormedB a) fun value => by
    have limitA := count_le_countLimit wellFormedA value
    have limitB := count_le_countLimit wellFormedB value
    omega
  obtain ⟨sum, given, same⟩ := filled.exists_beq_iff wellFormedB
  refine ⟨sum, given, ?_⟩
  rw [same, isSubset_iff_count wellFormedA]
  exact forall_congr' fun value => by omega

end Characterizations

section Monotonicity

variable {a b c d : Bag α} (wellFormedA : WellFormed a.entries) (wellFormedB : WellFormed b.entries)
variable (wellFormedC : WellFormed c.entries) (wellFormedD : WellFormed d.entries)
variable (within : a.isSubset b = true) (withinToo : c.isSubset d = true)
include wellFormedA wellFormedB within

/-- Taking a bag off a larger one leaves more. -/
theorem complement_mono (c : Bag α) : Included (a.complement c) (b.complement c) :=
  (gives_complement wellFormedA c).included (gives_complement wellFormedB c) fun value =>
    Nat.sub_le_sub_right ((isSubset_iff_count wellFormedA b).mp within value) _

include wellFormedC wellFormedD withinToo

/-- Larger bags have a larger intersection. -/
theorem intersection_mono : Included (a.intersection c) (b.intersection d) :=
  (gives_intersection wellFormedA wellFormedC).included (gives_intersection wellFormedB wellFormedD)
    fun value => min_le_min ((isSubset_iff_count wellFormedA b).mp within value)
      ((isSubset_iff_count wellFormedC d).mp withinToo value)

/-- Where the larger union fits a counter, so does the smaller. -/
theorem union_mono (fits : ∀ value, b.count value + d.count value ≤ countLimit) :
    Included (a.union c) (b.union d) := by
  have fewer (value : α) :
      a.count value + c.count value ≤ b.count value + d.count value :=
    Nat.add_le_add ((isSubset_iff_count wellFormedA b).mp within value)
      ((isSubset_iff_count wellFormedC d).mp withinToo value)
  exact (gives_union wellFormedA wellFormedC fun value => (fewer value).trans (fits value)).included
    (gives_union wellFormedB wellFormedD fits) fewer

end Monotonicity

/-- What inclusion is, and how it goes together with the operations on two bags. -/
structure InclusionLaws (a b c d : Bag α) : Prop where
  count : a.isSubset b = true ↔ ∀ value, a.count value ≤ b.count value
  elements : a.isSubset b = true ↔ a.elements ≤ b.elements
  /-- It is an order, and bags that include each other are equal. -/
  refl : a.isSubset a = true
  trans : a.isSubset b = true → b.isSubset c = true → a.isSubset c = true
  antisymm : a.isSubset b = true → b.isSubset a = true → (a == b) = true
  /-- It is strict where some value occurs less often. -/
  strict : a.isStrictSubset b = true ↔
    a.isSubset b = true ∧ ∃ value, a.count value < b.count value
  irrefl : a.isStrictSubset a = false
  strict_trans : a.isStrictSubset b = true → b.isStrictSubset c = true →
    a.isStrictSubset c = true
  converse : a.isSuperset b = b.isSubset a
  strict_converse : a.isStrictSuperset b = b.isStrictSubset a
  /-- Each operation tells whether it holds. -/
  complement_isEmpty : ∃ left, a.complement b = .ok left ∧
    (a.isSubset b = true ↔ left.isEmpty = true)
  intersection_beq : ∃ common, a.intersection b = .ok common ∧
    (a.isSubset b = true ↔ (common == a) = true)
  union_complement_beq : ∃ sum, (do a.union (← b.complement a)) = .ok sum ∧
    (a.isSubset b = true ↔ (sum == b) = true)
  /-- The operations keep it, in both operands or in the left one. -/
  union_mono : a.isSubset b = true → c.isSubset d = true →
    (∀ value, b.count value + d.count value ≤ countLimit) → Included (a.union c) (b.union d)
  intersection_mono : a.isSubset b = true → c.isSubset d = true →
    Included (a.intersection c) (b.intersection d)
  complement_mono : a.isSubset b = true → Included (a.complement c) (b.complement c)

/-- Inclusion of bags that runs arrive at is the order of multisets. -/
theorem inclusion_is_multiset_order {a b c d : Bag α} (reachedA : Reachable a)
    (reachedB : Reachable b) (reachedC : Reachable c) (reachedD : Reachable d) :
    InclusionLaws a b c d := by
  have wellFormedA := reachedA.wellFormed
  have wellFormedB := reachedB.wellFormed
  have wellFormedC := reachedC.wellFormed
  have wellFormedD := reachedD.wellFormed
  exact
    { count := isSubset_iff_count wellFormedA b
      elements := isSubset_iff_elements wellFormedA wellFormedB
      refl := isSubset_refl wellFormedA
      trans := isSubset_trans wellFormedA wellFormedB
      antisymm := fun within back =>
        (beq_iff_isSubset wellFormedA wellFormedB).mpr ⟨within, back⟩
      strict := isStrictSubset_iff_count wellFormedA wellFormedB
      irrefl := Bool.eq_false_iff.mpr fun strict =>
        ((isStrictSubset_iff wellFormedA wellFormedA).mp strict).2 (isSubset_refl wellFormedA)
      strict_trans := isStrictSubset_trans wellFormedA wellFormedB wellFormedC
      converse := rfl
      strict_converse := rfl
      complement_isEmpty := exists_complement_isEmpty_iff wellFormedA b
      intersection_beq := exists_intersection_beq_iff wellFormedA wellFormedB
      union_complement_beq := exists_union_complement_beq_iff wellFormedA wellFormedB
      union_mono := Bag.union_mono wellFormedA wellFormedB wellFormedC wellFormedD
      intersection_mono := Bag.intersection_mono wellFormedA wellFormedB wellFormedC wellFormedD
      complement_mono := fun within => Bag.complement_mono wellFormedA wellFormedB within c }

/-- The numbers `1, 2` are strictly included in `2, 1, 1`. -/
theorem inclusion_is_multiset_order_numbers :
    Bag.ofList [1, 2] = Except.ok (⟨[(1, 1), (2, 1)]⟩ : Bag Int) ∧
      Bag.ofList [2, 1, 1] = Except.ok (⟨[(2, 1), (1, 2)]⟩ : Bag Int) ∧
      (⟨[(1, 1), (2, 1)]⟩ : Bag Int).isStrictSubset ⟨[(2, 1), (1, 2)]⟩ = true := by
  have smaller : Bag.ofList [1, 2] = Except.ok (⟨[(1, 1), (2, 1)]⟩ : Bag Int) := rfl
  have larger : Bag.ofList [2, 1, 1] = Except.ok (⟨[(2, 1), (1, 2)]⟩ : Bag Int) := rfl
  have laws := inclusion_is_multiset_order (.ofList smaller) (.ofList larger) (.ofList smaller)
    (.ofList larger)
  refine ⟨smaller, larger, laws.strict.mpr ⟨laws.count.mpr fun value => ?_, 1, by decide⟩⟩
  rw [count_ofList smaller, count_ofList larger]
  simp only [List.count_cons, List.count_nil]
  omega

end RootFinding.Bag
