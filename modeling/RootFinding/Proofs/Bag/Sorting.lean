import RootFinding.Complex.Bag
import RootFinding.Proofs.Bag.Matching
import RootFinding.Proofs.Binary.Laws
import RootFinding.Proofs.SignedZero

/-!
# Sorted elements

Points are sorted by their real and then by their imaginary parts, and parts that cannot be compared
tie. Of numbers each has a place in a linear order, in which equal points share one. So points whose
parts are numbers tie exactly if they are equal, and their sorted list is known, up to the signs of
zeros, by how often each point occurs: bags are equal exactly if their sorted lists are equal
element by element, whatever built the bags and however their tables stand.
-/

namespace RootFinding

namespace Complex

/-- Sorting only rearranges. -/
theorem sort_perm {R : Type} [Scalar R] (zs : List (Complex R)) : (sort zs).Perm zs :=
  List.mergeSort_perm zs _

variable {R : Type} [RealFunctions R] [FloatingScalar R]

/-- A point whose parts are numbers. -/
abbrev IsNumber (z : Complex R) : Prop := z.isNaN = false

/-- A point comes before another by its real part, or has an equal one and does not come after it by
its imaginary part. -/
def Precedes (z w : Complex R) : Prop :=
  z.re < w.re ∨ (z.re == w.re) = true ∧ z.im ≤ w.im

/-- The place of a point in the lexicographic order of its parts. -/
def place (z : Complex R) : (ℤ ×ₗ ℤ ×ₗ ℤ) ×ₗ (ℤ ×ₗ ℤ ×ₗ ℤ) :=
  toLex (FloatingScalar.place z.re, FloatingScalar.place z.im)

section Order

variable {z w : Complex R}

/-- Points have one place exactly if their parts do. -/
theorem place_eq_iff : z.place = w.place ↔
    FloatingScalar.place z.re = FloatingScalar.place w.re ∧
      FloatingScalar.place z.im = FloatingScalar.place w.im :=
  Prod.ext_iff

/-- Equal points have one place. -/
theorem place_eq_of_beq (equal : (z == w) = true) : z.place = w.place := by
  obtain ⟨sameRe, sameIm⟩ := beq_iff.mp equal
  exact place_eq_iff.mpr
    ⟨(FloatingScalar.same_of_beq sameRe).place, (FloatingScalar.same_of_beq sameIm).place⟩

variable (number : z.IsNumber) (numberToo : w.IsNumber)
include number numberToo

/-- Points are equal exactly if they have one place. -/
theorem beq_iff_place : (z == w) = true ↔ z.place = w.place := by
  rw [IsNumber, isNaN, Bool.or_eq_false_iff] at number numberToo
  rw [beq_iff, place_eq_iff, FloatingScalar.beq_iff_place number.1 numberToo.1,
    FloatingScalar.beq_iff_place number.2 numberToo.2]

/-- The order of points is that of their places. -/
theorem order_eq_compare : order z w = compare z.place w.place := by
  rw [IsNumber, isNaN, Bool.or_eq_false_iff] at number numberToo
  rw [order, FloatingScalar.order_eq_compare number.1 numberToo.1,
    FloatingScalar.order_eq_compare number.2 numberToo.2]
  rfl

/-- A point comes before another exactly if its place does. -/
theorem precedes_iff_place : Precedes z w ↔ z.place ≤ w.place := by
  rw [IsNumber, isNaN, Bool.or_eq_false_iff] at number numberToo
  rw [Precedes, FloatingScalar.beq_iff_place number.1 numberToo.1, FloatingScalar.lt_iff_place,
    FloatingScalar.le_iff_place, place, place, Prod.Lex.toLex_le_toLex]
  simp only [number, numberToo, true_and]

end Order

section Lists

variable {zs ws : List (Complex R)}
variable (numbers : ∀ z ∈ zs, z.IsNumber) (numbersToo : ∀ w ∈ ws, w.IsNumber)

include numbers in
/-- The places of sorted points ascend. -/
theorem pairwise_place_sort : ((sort zs).map place).Pairwise (· ≤ ·) := by
  have places : (sort zs).map place = (zs.map place).mergeSort := by
    refine List.map_mergeSort fun z isZ w isW => ?_
    rw [Bool.eq_iff_iff, order_eq_compare (numbers z isZ) (numbers w isW), decide_eq_true_iff]
    exact Ordering.isLE_iff_ne_gt.trans compare_le_iff_le
  rw [places]
  exact List.pairwise_mergeSort' (· ≤ ·) _

include numbers in
/-- A sorted list is ascending. -/
theorem pairwise_precedes_sort : (sort zs).Pairwise Precedes := by
  have among {z : Complex R} (member : z ∈ sort zs) : z.IsNumber :=
    numbers z ((sort_perm zs).subset member)
  exact (List.pairwise_map.mp (pairwise_place_sort numbers)).imp_of_mem fun isZ isW below =>
    (precedes_iff_place (among isZ) (among isW)).mpr below

include numbers numbersToo in
/-- Points are equal one by one if their places are. -/
theorem forall₂_beq_of_place (same : zs.map place = ws.map place) :
    List.Forall₂ (fun z w => (z == w) = true) zs ws := by
  rw [← List.forall₂_eq_eq_eq, List.forall₂_map_left_iff, List.forall₂_map_right_iff,
    List.forall₂_iff_get] at same
  rw [List.forall₂_iff_get]
  refine ⟨same.1, fun k inZ inW => ?_⟩
  exact (beq_iff_place (numbers _ (List.get_mem zs _)) (numbersToo _ (List.get_mem ws _))).mpr
    (same.2 k inZ inW)

end Lists

end Complex

namespace Bag

variable {R : Type} [RealFunctions R] [PointScalar R] [FloatingScalar R]

/-- The place of what is equal to a point. -/
def placeOfClass : Class (Complex R) → (ℤ ×ₗ ℤ ×ₗ ℤ) ×ₗ (ℤ ×ₗ ℤ ×ₗ ℤ) :=
  Quotient.lift Complex.place fun z w same => by
    rcases same with rfl | equal
    · rfl
    · exact Complex.place_eq_of_beq equal

/-- Lists of one multiset have the same places. -/
theorem perm_place_of_classes {zs ws : List (Complex R)} (same : classes zs = classes ws) :
    (zs.map Complex.place).Perm (ws.map Complex.place) := by
  have places := congrArg (Multiset.map placeOfClass) same
  rw [classes, classes, Multiset.map_coe, Multiset.map_coe, List.map_map, List.map_map,
    Multiset.coe_eq_coe] at places
  exact places

/-- Lists that are equal element by element have one multiset. -/
theorem classes_eq_of_forall₂ {α : Type} [BEq α] [PartialEquivBEq α] {values others : List α}
    (equal : List.Forall₂ (fun x y => (x == y) = true) values others) :
    classes values = classes others := by
  induction equal with
  | nil => rfl
  | cons same _ inductionHypothesis =>
      rw [classes_cons, classes_cons, classOf_eq_of_beq same, inductionHypothesis]

/-- Sorted lists of numbers are equal element by element exactly if the lists have one multiset. -/
theorem forall₂_beq_sort_iff {zs ws : List (Complex R)} (numbers : ∀ z ∈ zs, z.IsNumber)
    (numbersToo : ∀ w ∈ ws, w.IsNumber) :
    List.Forall₂ (fun z w => (z == w) = true) (Complex.sort zs) (Complex.sort ws) ↔
      classes zs = classes ws := by
  have rearranged := Complex.sort_perm zs
  have rearrangedToo := Complex.sort_perm ws
  constructor
  · intro equal
    rw [← classes_eq_of_perm rearranged, ← classes_eq_of_perm rearrangedToo]
    exact classes_eq_of_forall₂ equal
  · intro same
    have samePlaces : ((Complex.sort zs).map Complex.place).Perm
        ((Complex.sort ws).map Complex.place) :=
      (rearranged.map _).trans ((perm_place_of_classes same).trans (rearrangedToo.map _).symm)
    refine Complex.forall₂_beq_of_place (fun z member => numbers z (rearranged.subset member))
      (fun w member => numbersToo w (rearrangedToo.subset member)) ?_
    exact samePlaces.eq_of_pairwise' (Complex.pairwise_place_sort numbers)
      (Complex.pairwise_place_sort numbersToo)

/-- The sorted list is canonical. It holds every element as often as the bag does, it ascends, and
two bags are equal exactly if their sorted lists are equal element by element, whatever runs arrived
at them and however their tables stand. -/
theorem sorted_canonical {a b : Bag (Complex R)} (reachedA : ReachableIn Complex.IsNumber a)
    (reachedB : ReachableIn Complex.IsNumber b) :
    a.sorted.Perm a.toList ∧ (∀ z, a.sorted.count z = a.count z) ∧
      a.sorted.Pairwise Complex.Precedes ∧
      ((a == b) = true ↔ List.Forall₂ (fun z w => (z == w) = true) a.sorted b.sorted) := by
  have wellFormedA := reachedA.reached.wellFormed
  have wellFormedB := reachedB.reached.wellFormed
  have rearranged : a.sorted.Perm a.toList := Complex.sort_perm _
  have self (z : Complex R) (number : z.IsNumber) : (z == z) = true := by
    rw [Complex.beq_self, number, Bool.not_false]
  refine ⟨rearranged, fun z => ?_, Complex.pairwise_precedes_sort reachedA.within, ?_⟩
  · rw [rearranged.count_eq, toList_eq, count_eq_countIn, countIn_eq_count z wellFormedA.apart]
  · rw [beq_iff_elements wellFormedA wellFormedB (reachedA.selfEqual self)
      (reachedB.selfEqual self)]
    exact (forall₂_beq_sort_iff reachedA.within reachedB.within).symm

/-- The points `1` and `i`, in either order and with either zero, have sorted lists that are equal
element by element. -/
theorem sorted_canonical_units :
    let a : Bag (Complex Float) := ⟨[(⟨1, 0⟩, 1), (⟨0, 1⟩, 1)]⟩
    let b : Bag (Complex Float) := ⟨[(⟨-0, 1⟩, 1), (⟨1, -0⟩, 1)]⟩
    ReachableIn Complex.IsNumber a ∧ ReachableIn Complex.IsNumber b ∧
      List.Forall₂ (fun z w => (z == w) = true) a.sorted b.sorted := by
  intro a b
  have reachedA : ReachableIn Complex.IsNumber a :=
    reachableIn_pair (by decide +kernel) (by decide +kernel) (by decide +kernel)
  have reachedB : ReachableIn Complex.IsNumber b :=
    reachableIn_pair (by decide +kernel) (by decide +kernel) (by decide +kernel)
  exact ⟨reachedA, reachedB,
    (sorted_canonical reachedA reachedB).2.2.2.mp (by decide +kernel)⟩

end Bag

end RootFinding
