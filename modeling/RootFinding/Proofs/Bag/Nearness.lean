import RootFinding.Complex.Bag
import RootFinding.Proofs.Bag.Matching
import RootFinding.Proofs.SignedZero

/-!
# When closeness of bags depends on the order

Bags of points are compared by a greedy matching. Where each point has its own neighbours, the
answer is whether the points can be paired, whatever bags of equal points are compared and in
whatever order their tables stand. Overlapping neighbourhoods are enough to make it depend on the
order.
-/

namespace RootFinding.Bag

variable {R : Type} [RealFunctions R]

/-- Points nearer to each other than a tolerance. -/
def near (tolerance : R) (z w : Complex R) : Bool := decide ((z - w).abs < tolerance)

variable [PointScalar R]

/-- Nearness does not tell equal points apart. -/
theorem congruent_near (tolerance : R) : Congruent (near tolerance) := by
  intro z z' w w' sameZ sameW
  rw [near, near, Complex.abs_sub_congr sameZ sameW]

/-- Closeness of bags of points is the same for equal bags exactly if their points are unambiguous.
Bags that are close always have a pairing, and of unambiguous points every pairing is found. -/
theorem isNear_order_independent_iff (tolerance : R) {left right : Complex R → Prop}
    (leftPoints : ∀ z, left z → z.isNaN = false) (rightPoints : ∀ w, right w → w.isNaN = false) :
    ((∀ a a' b b' : Bag (Complex R), ReachableIn left a → ReachableIn left a' →
        ReachableIn right b → ReachableIn right b' → (a == a') = true → (b == b') = true →
          a.isNear b tolerance = a'.isNear b' tolerance) ↔
      Unambiguous (near tolerance) left right) ∧
    (∀ a b : Bag (Complex R), ReachableIn left a → ReachableIn right b →
      a.isNear b tolerance = .ok true → Paired (near tolerance) a.toList b.toList) ∧
    (Unambiguous (near tolerance) left right →
      ∀ (a b : Bag (Complex R)) (n : Nat), ReachableIn left a → ReachableIn right b →
        a.size = .ok n → Paired (near tolerance) a.toList b.toList →
          a.isNear b tolerance = .ok true) := by
  have congruent := congruent_near tolerance
  have selfLeft (z : Complex R) (inLeft : left z) : (z == z) = true := by
    rw [Complex.beq_self, leftPoints z inLeft, Bool.not_false]
  have selfRight (w : Complex R) (inRight : right w) : (w == w) = true := by
    rw [Complex.beq_self, rightPoints w inRight, Bool.not_false]
  refine ⟨⟨fun agrees => ?_, fun unambiguous a a' b b' => ?_⟩, fun a b _ reachedB => ?_,
    fun unambiguous a b n reachedA reachedB => ?_⟩
  · refine unambiguous_of_agrees congruent selfLeft selfRight
      fun a a' b reachedA reachedA' reachedB same => ?_
    have reflexive : (b == b) = true := by
      rw [beq_iff_elements reachedB.reached.wellFormed reachedB.reached.wellFormed
        (reachedB.selfEqual selfRight) (reachedB.selfEqual selfRight)]
    exact agrees a a' b b reachedA reachedA' reachedB reachedB same reflexive
  · exact pairsUnder_congr congruent selfLeft selfRight unambiguous
  · exact paired_of_pairsUnder reachedB.reached.wellFormed (reachedB.selfEqual selfRight)
  · exact pairsUnder_of_paired congruent selfLeft selfRight unambiguous reachedA reachedB

/-- Points with one neighbour each are compared alike, whichever comes first in either table. -/
theorem isNear_order_independent_integers :
    Unambiguous (near (1.25 : Float)) (fun z => z = ⟨0, 0⟩ ∨ z = ⟨3, 0⟩)
        (fun w => w = ⟨1, 0⟩ ∨ w = ⟨3, 1⟩) ∧
      (⟨[(⟨0, 0⟩, 1), (⟨3, 0⟩, 1)]⟩ : Bag (Complex Float)).isNear
          ⟨[(⟨1, 0⟩, 1), (⟨3, 1⟩, 1)]⟩ 1.25 =
        (⟨[(⟨3, 0⟩, 1), (⟨0, 0⟩, 1)]⟩ : Bag (Complex Float)).isNear
          ⟨[(⟨3, 1⟩, 1), (⟨1, 0⟩, 1)]⟩ 1.25 := by
  have unambiguous : Unambiguous (near (1.25 : Float)) (fun z => z = ⟨0, 0⟩ ∨ z = ⟨3, 0⟩)
      (fun w => w = ⟨1, 0⟩ ∨ w = ⟨3, 1⟩) := by
    rintro z z' w w' (rfl | rfl) (rfl | rfl) (rfl | rfl) (rfl | rfl) <;> unfold Pairs <;>
      decide +kernel
  have leftPoints (z : Complex Float) (isLeft : z = ⟨0, 0⟩ ∨ z = ⟨3, 0⟩) : z.isNaN = false := by
    rcases isLeft with rfl | rfl <;> decide +kernel
  have rightPoints (w : Complex Float) (isRight : w = ⟨1, 0⟩ ∨ w = ⟨3, 1⟩) : w.isNaN = false := by
    rcases isRight with rfl | rfl <;> decide +kernel
  have alike := (isNear_order_independent_iff (1.25 : Float) leftPoints rightPoints).1.mpr
    unambiguous
  have apartLeft : ((⟨0, 0⟩ : Complex Float) == ⟨3, 0⟩) = false := by decide +kernel
  have apartRight : ((⟨1, 0⟩ : Complex Float) == ⟨3, 1⟩) = false := by decide +kernel
  refine ⟨unambiguous, alike _ _ _ _ ?_ ?_ ?_ ?_ ?_ ?_⟩
  · exact reachableIn_pair apartLeft (Or.inl rfl) (Or.inr rfl)
  · exact reachableIn_pair (BEq.symm_false apartLeft) (Or.inr rfl) (Or.inl rfl)
  · exact reachableIn_pair apartRight (Or.inl rfl) (Or.inr rfl)
  · exact reachableIn_pair (BEq.symm_false apartRight) (Or.inr rfl) (Or.inl rfl)
  · decide +kernel
  · decide +kernel

/-- The points `0` and `1` are close to `1` and `2` if `0` comes first: if `1` does, it takes the
only point that `0` is near to. -/
theorem isNear_depends_on_order :
    ∃ a a' b : Bag (Complex Float),
      Bag.ofList [⟨0, 0⟩, ⟨1, 0⟩] = .ok a ∧ Bag.ofList [⟨1, 0⟩, ⟨0, 0⟩] = .ok a' ∧
      Bag.ofList [⟨1, 0⟩, ⟨2, 0⟩] = .ok b ∧ (a == a') = true ∧
      (∀ z ∈ a.toList ++ a'.toList ++ b.toList, z.isNaN = false) ∧
      a.isNear b 1.5 = .ok true ∧ a'.isNear b 1.5 = .ok false := by
  refine ⟨⟨[(⟨0, 0⟩, 1), (⟨1, 0⟩, 1)]⟩, ⟨[(⟨1, 0⟩, 1), (⟨0, 0⟩, 1)]⟩,
    ⟨[(⟨1, 0⟩, 1), (⟨2, 0⟩, 1)]⟩, ?_, ?_, ?_, ?_, ?_, ?_, ?_⟩
  · exact ofList_pair (by decide +kernel)
  · exact ofList_pair (by decide +kernel)
  · exact ofList_pair (by decide +kernel)
  · decide +kernel
  · decide +kernel
  · decide +kernel
  · decide +kernel

end RootFinding.Bag
