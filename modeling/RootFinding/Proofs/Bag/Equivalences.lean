import RootFinding.Proofs.Bag.Matching
import RootFinding.Proofs.Bag.Overflow

/-!
# Matching under an equivalence

The greedy matching never pairs what it may not, whatever the relation is. If the relation is an
equivalence, no choice that it makes is a loss: elements that could take one partner can take the
same partners. So it finds a pairing exactly if there is one, and there is one exactly if every
class of the equivalence has as many elements in one bag as in the other.
-/

namespace RootFinding.Bag

open Outcome

variable {α : Type} [BEq α]

/-- An equivalence of values. Equal values are one value to a bag, so reflexivity is that equal
values are equivalent; `pairsUnder_misses_pairing` shows what happens where they are not. -/
structure IsEquivalence (related : α → α → Bool) : Prop where
  refl : ∀ x y, (x == y) = true → related x y = true
  symm : ∀ x y, related x y = true → related y x = true
  trans : ∀ x y z, related x y = true → related y z = true → related x z = true

/-- Where `==` is equality, that is an equivalence relation in the usual sense. -/
theorem isEquivalence_iff [LawfulBEq α] {related : α → α → Bool} :
    IsEquivalence related ↔ Equivalence fun x y => related x y = true := by
  constructor
  · intro equivalence
    exact ⟨fun x => equivalence.refl x x BEq.rfl, fun {x y} => equivalence.symm x y,
      fun {x y z} => equivalence.trans x y z⟩
  · intro equivalence
    refine ⟨?_, fun x y => equivalence.symm, fun x y z => equivalence.trans⟩
    intro x y same
    rw [eq_of_beq same]
    exact equivalence.refl y

/-- Having equal images is an equivalence. -/
theorem isEquivalence_image [LawfulBEq α] {β : Type} [BEq β] [EquivBEq β] (image : α → β) :
    IsEquivalence fun x y => image x == image y where
  refl x y same := by
    rw [eq_of_beq same]
    exact BEq.rfl
  symm _ _ := BEq.symm
  trans _ _ _ := BEq.trans

/-- How many elements are related to a value: the sum of the counts of the values that are. -/
def classTotal (related : α → α → Bool) (value : α) (bag : Bag α) : Nat :=
  weight (bag.entries.filter fun entry => related value entry.1)

omit [BEq α] in
/-- The total of an equivalence class counts the elements that are related to a value. -/
theorem classTotal_eq_countP (related : α → α → Bool) (value : α) (bag : Bag α) :
    classTotal related value bag = bag.toList.countP (related value) := by
  rw [classTotal, ← length_expand, expand_filter, ← toList_eq, List.countP_eq_length_filter]

namespace IsEquivalence

variable {related : α → α → Bool} (equivalence : IsEquivalence related)
include equivalence

/-- Possible partners are equivalent values. -/
theorem pairs_iff {x y : α} : Pairs related x y ↔ related x y = true :=
  ⟨fun pairs => pairs.elim (equivalence.refl x y) id, Or.inr⟩

variable [EquivBEq α]

/-- An equivalence looks at values up to `==`. -/
theorem congruent : Congruent related := by
  have forward {x x' y y' : α} (sameX : (x == x') = true) (sameY : (y == y') = true)
      (holds : related x y = true) : related x' y' = true :=
    equivalence.trans x' x y' (equivalence.refl x' x (BEq.symm sameX))
      (equivalence.trans x y y' holds (equivalence.refl y y' sameY))
  intro x x' y y' sameX sameY
  rw [Bool.eq_iff_iff]
  exact ⟨forward sameX sameY, forward (BEq.symm sameX) (BEq.symm sameY)⟩

omit [EquivBEq α] in
/-- Two values that can take one partner can take the same partners. -/
theorem unambiguous (left right : α → Prop) : Unambiguous related left right := by
  intro x x' y y' _ _ _ _ takes takesToo spare
  rw [equivalence.pairs_iff] at takes takesToo spare
  refine Or.inl (Or.inr ?_)
  exact equivalence.trans x' y y' takesToo
    (equivalence.trans y x y' (equivalence.symm x y takes) spare)

/-- The values up to the equivalence. -/
def setoid : Setoid α where
  r x y := related x y = true
  iseqv :=
    { refl := fun x => equivalence.refl x x BEq.rfl
      symm := fun {x y} => equivalence.symm x y
      trans := fun {x y z} => equivalence.trans x y z }

open Classical in
/-- Lists have a pairing exactly if every class has as many elements in one as in the other. -/
theorem paired_iff_countP (values others : List α) :
    Paired related values others ↔
      ∀ x, values.countP (related x) = others.countP (related x) := by
  let classOf : α → Quotient equivalence.setoid := Quotient.mk equivalence.setoid
  have same (x y : α) : classOf x = classOf y ↔ related x y = true := Quotient.eq
  -- A pairing of equivalent elements is an equality of the multisets of their classes.
  have sameClasses : Paired related values others ↔
      (values.map classOf : Multiset (Quotient equivalence.setoid)) = others.map classOf := by
    rw [← Multiset.rel_eq, ← Multiset.map_coe, ← Multiset.map_coe, Multiset.rel_map, rel_coe_iff,
      Paired]
    simp only [same, ← equivalence.pairs_iff]
  have counted (x : α) (list : List α) :
      (list.map classOf : Multiset (Quotient equivalence.setoid)).count (classOf x) =
        list.countP (related x) := by
    rw [Multiset.coe_count, List.count_eq_countP, List.countP_map]
    refine List.countP_congr fun y _ => ?_
    rw [Function.comp_apply, beq_iff_eq, eq_comm, same]
  rw [sameClasses, Multiset.ext]
  constructor
  · intro counts x
    rw [← counted, ← counted, counts]
  · intro counts key
    obtain ⟨x, rfl⟩ := Quotient.exists_rep key
    exact (counted x values).trans ((counts x).trans (counted x others).symm)

end IsEquivalence

section Exactness

variable [EquivBEq α] {related : α → α → Bool} {a b : Bag α}

/-- A pairing under an equivalence is found, where a counter can hold its size. -/
theorem pairsUnder_iff_paired (equivalence : IsEquivalence related) (reachedA : Reachable a)
    (reachedB : Reachable b) :
    a.pairsUnder related b = .ok true ↔
      Paired related a.toList b.toList ∧ a.total ≤ countLimit := by
  have everything {bag : Bag α} (reached : Reachable bag) : ReachableIn (fun _ => True) bag :=
    ⟨reached, fun _ _ => trivial⟩
  constructor
  · intro answered
    refine ⟨paired_of_pairsUnder reachedB.wellFormed (selfEqual _) answered, ?_⟩
    by_contra tooLarge
    rw [pairsUnder_eq, size_eq, if_neg tooLarge] at answered
    cases answered
  · rintro ⟨paired, fits⟩
    have counted : a.size = .ok a.total := by rw [size_eq, if_pos fits]
    exact pairsUnder_of_paired equivalence.congruent (fun _ _ => BEq.rfl) (fun _ _ => BEq.rfl)
      (equivalence.unambiguous _ _) (everything reachedA) (everything reachedB) counted paired

/-- The greedy matching is sound for every relation: bags that it matches have a pairing of their
elements, one to one, in which the two of each pair are equal or related. For an equivalence it is
complete, in whatever order the tables stand: it matches the bags that have a pairing, up to the
size that a counter can hold, and those have one whose classes have the same totals. -/
theorem pairsUnder_sound_complete (reachedA : Reachable a) (reachedB : Reachable b)
    (related : α → α → Bool) :
    (a.pairsUnder related b = .ok true → Paired related a.toList b.toList) ∧
    (IsEquivalence related →
      (a.pairsUnder related b = .ok true ↔
        Paired related a.toList b.toList ∧ a.total ≤ countLimit) ∧
      (a.total ≤ countLimit → b.total ≤ countLimit →
        ∃ answer, a.pairsUnder related b = .ok answer) ∧
      (Paired related a.toList b.toList ↔
        ∀ x, classTotal related x a = classTotal related x b)) := by
  refine ⟨paired_of_pairsUnder reachedB.wellFormed (selfEqual _), fun equivalence => ⟨?_, ?_, ?_⟩⟩
  · exact pairsUnder_iff_paired equivalence reachedA reachedB
  · intro fitsA fitsB
    exact (overflowsIff_pairsUnder related a b).2 (by omega)
  · simp only [classTotal_eq_countP]
    exact equivalence.paired_iff_countP a.toList b.toList

end Exactness

/-- Modulo three the numbers `1, 1, 2` are matched with `5, 4, 7`. -/
theorem pairsUnder_sound_complete_residues :
    (⟨[(1, 2), (2, 1)]⟩ : Bag Int).pairsUnder (fun x y => x % 3 == y % 3)
      ⟨[(5, 1), (4, 1), (7, 1)]⟩ = .ok true := by
  have first : Bag.ofList [1, 1, 2] = Except.ok (⟨[(1, 2), (2, 1)]⟩ : Bag Int) := rfl
  have second : Bag.ofList [5, 4, 7] = Except.ok (⟨[(5, 1), (4, 1), (7, 1)]⟩ : Bag Int) := rfl
  obtain ⟨answers, _, totals⟩ := (pairsUnder_sound_complete (.ofList first) (.ofList second)
    fun x y => x % 3 == y % 3).2 (isEquivalence_image (· % 3))
  refine answers.mpr ⟨totals.mpr fun x => ?_, by decide⟩
  have residues : x % 3 = 0 ∨ x % 3 = 1 ∨ x % 3 = 2 := by omega
  rcases residues with zero | one | two
  · simp [classTotal, zero]
  · simp [classTotal, one]
  · simp [classTotal, two]

/-- A natural number with a sign of its own, so that there are two zeros. -/
structure Signed where
  negative : Bool
  size : Nat

namespace Signed

/-- The two zeros are equal. -/
instance : BEq Signed where
  beq x y := x.size == y.size && (x.size == 0 || x.negative == y.negative)

/-- Signed numbers are equal exactly if their sizes are, and their signs unless they are zeros. -/
theorem beq_iff {x y : Signed} :
    (x == y) = true ↔ x.size = y.size ∧ (x.size = 0 ∨ x.negative = y.negative) := by
  rw [BEq.beq, instBEq]
  simp

instance : EquivBEq Signed where
  rfl := beq_iff.mpr ⟨rfl, Or.inr rfl⟩
  symm same := by
    rw [beq_iff] at same ⊢
    exact ⟨same.1.symm, same.2.imp (same.1 ▸ ·) Eq.symm⟩
  trans first second := by
    rw [beq_iff] at first second ⊢
    refine ⟨first.1.trans second.1, ?_⟩
    rcases first.2 with zero | sameSign
    · exact Or.inl zero
    · exact second.2.imp (first.1 ▸ ·) sameSign.trans

/-- Having the same sign is an equivalence, but the two zeros, which are equal, do not have it. -/
def sameSign (x y : Signed) : Bool := x.negative == y.negative

end Signed

/-- An equivalence in the usual sense is not enough. A bag with one element more than a counter can
hold is not matched with itself. And where equal values may be inequivalent, an element may take an
equal partner that another would have needed: of `0, -1` the zero takes that of `-0, 2`, and nothing
is left for `-1`. -/
theorem pairsUnder_misses_pairing :
    (Reachable (⟨[(1, countLimit), (2, 1)]⟩ : Bag Int) ∧
      Equivalence (fun x y : Int => (x % 3 == y % 3) = true) ∧
      Paired (fun x y : Int => x % 3 == y % 3) (⟨[(1, countLimit), (2, 1)]⟩ : Bag Int).toList
        (⟨[(1, countLimit), (2, 1)]⟩ : Bag Int).toList ∧
      (⟨[(1, countLimit), (2, 1)]⟩ : Bag Int).pairsUnder (fun x y => x % 3 == y % 3)
        ⟨[(1, countLimit), (2, 1)]⟩ = .error .countOverflow) ∧
    EquivBEq Signed ∧ Equivalence (fun x y => Signed.sameSign x y = true) ∧
      ∃ a b, Bag.ofList [⟨false, 0⟩, ⟨true, 1⟩] = Except.ok a ∧
        Bag.ofList [⟨true, 0⟩, ⟨false, 2⟩] = Except.ok b ∧
        Paired Signed.sameSign a.toList b.toList ∧
        (∀ x, classTotal Signed.sameSign x a = classTotal Signed.sameSign x b) ∧
        a.pairsUnder Signed.sameSign b = .ok false := by
  constructor
  · have full : (∅ : Bag Int).insertMany 1 countLimit = .ok ⟨[(1, countLimit)]⟩ := rfl
    have overfull : (⟨[(1, countLimit)]⟩ : Bag Int).insert 2 =
      .ok ⟨[(1, countLimit), (2, 1)]⟩ := rfl
    refine ⟨(Reachable.empty.insertMany full).insert overfull,
      isEquivalence_iff.mp (isEquivalence_image (· % 3)), ?_, ?_⟩
    · exact ⟨_, List.Perm.refl _, List.forall₂_same.mpr fun x _ => Or.inl BEq.rfl⟩
    · exact (overflowsIff_pairsUnder _ _ _).1 (Or.inl (by decide))
  · refine ⟨inferInstance, ?_, ⟨[(⟨false, 0⟩, 1), (⟨true, 1⟩, 1)]⟩,
      ⟨[(⟨true, 0⟩, 1), (⟨false, 2⟩, 1)]⟩, rfl, rfl, ?_, ?_, rfl⟩
    · simp only [Signed.sameSign, beq_iff_eq]
      exact ⟨fun _ => rfl, Eq.symm, Eq.trans⟩
    · refine ⟨[⟨false, 2⟩, ⟨true, 0⟩], List.Perm.swap _ _ _, ?_⟩
      exact .cons (Or.inr rfl) (.cons (Or.inr rfl) .nil)
    · intro x
      rcases x with ⟨_ | _, _⟩ <;> rfl

end RootFinding.Bag
