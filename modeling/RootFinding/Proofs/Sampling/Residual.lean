import RootFinding.Proofs.Binary.Laws
import RootFinding.Sampling.TestCase

/-!
# The largest residual

The maximum of two values prefers a number to what is not a number, and the fold that takes the
largest residual starts from a number. So the largest residual is always a number: it bounds the
residuals that are numbers, and says nothing of the others.
-/

namespace RootFinding

open FloatingScalar

section Maximum

variable {R : Type} [Scalar R] [FloatingScalar R]

/-- The maximum of a number and a value is the number or the value. It bounds the number, and the
value if that is a number too. -/
theorem Scalar.maximum_cases {x : R} (number : Scalar.isNaN x = false) (y : R) :
    Scalar.isNaN (Scalar.maximum x y) = false ∧
    x ≤ Scalar.maximum x y ∧
    (Scalar.isNaN y = false → y ≤ Scalar.maximum x y) ∧
    (Scalar.maximum x y = x ∨ Scalar.maximum x y = y) := by
  unfold Scalar.maximum
  rw [number, if_neg Bool.false_ne_true]
  split
  · next notANumber =>
    refine ⟨number, le_refl number, fun numberToo => ?_, Or.inl rfl⟩
    rw [notANumber] at numberToo
    cases numberToo
  · next isNumber =>
    have numberToo : Scalar.isNaN y = false := Bool.eq_false_iff.mpr isNumber
    split
    · next less =>
      exact ⟨numberToo, le_of_lt less, fun _ => le_refl numberToo, Or.inr rfl⟩
    · next notLess =>
      exact ⟨number, le_refl number, fun _ => le_of_not_lt number numberToo notLess, Or.inl rfl⟩

/-- The maximum of some values from a number on is that number or one of the values, and bounds all
of them that are numbers. -/
theorem Scalar.foldl_maximum {start : R} (number : Scalar.isNaN start = false) (values : List R) :
    Scalar.isNaN (values.foldl Scalar.maximum start) = false ∧
    start ≤ values.foldl Scalar.maximum start ∧
    (∀ value ∈ values, Scalar.isNaN value = false → value ≤ values.foldl Scalar.maximum start) ∧
    (values.foldl Scalar.maximum start = start ∨ values.foldl Scalar.maximum start ∈ values) := by
  induction values generalizing start with
  | nil =>
      exact ⟨number, le_refl number, fun _ member => absurd member List.not_mem_nil, Or.inl rfl⟩
  | cons value values inductionHypothesis =>
      obtain ⟨numberToo, above, aboveValue, first⟩ := maximum_cases number value
      obtain ⟨isNumber, aboveBoth, aboveOthers, either⟩ := inductionHypothesis numberToo
      rw [List.foldl_cons]
      refine ⟨isNumber, le_trans above aboveBoth, ?_, ?_⟩
      · intro other member isOther
        obtain rfl | isLater := List.mem_cons.mp member
        · exact le_trans (aboveValue isOther) aboveBoth
        · exact aboveOthers other isLater isOther
      · rcases either with isFirst | isLater
        · rw [isFirst]
          exact first.imp_right fun isValue => by rw [isValue]; exact List.mem_cons_self
        · exact Or.inr (List.mem_cons_of_mem value isLater)

end Maximum

namespace Poly

variable {K R : Type} [Zero K] [Add K] [Mul K] [Scalar R] [FloatingScalar R] [Coefficient K R]

/-- The largest residual is a number, and it is zero or the residual of a point. It is at least the
residual of every point at which that is a number, and it is below a tolerance exactly if the
tolerance is positive and each residual is below it or not a number. So it bounds the residuals of
all points exactly if all of them are numbers. -/
theorem largestResidual_bounds_numbers (p : Poly K) (points : Bag K) :
    Scalar.isNaN (p.largestResidual points) = false ∧
    (p.largestResidual points = 0 ∨
      ∃ z ∈ points.toList, p.largestResidual points = Coefficient.abs (p.eval z)) ∧
    (∀ z ∈ points.toList, Scalar.isNaN (Coefficient.abs (p.eval z)) = false →
      Coefficient.abs (p.eval z) ≤ p.largestResidual points) ∧
    (∀ tolerance : R, p.largestResidual points < tolerance ↔
      0 < tolerance ∧ ∀ z ∈ points.toList,
        Scalar.isNaN (Coefficient.abs (p.eval z)) = true ∨
          Coefficient.abs (p.eval z) < tolerance) ∧
    ((∀ z ∈ points.toList, Coefficient.abs (p.eval z) ≤ p.largestResidual points) ↔
      ∀ z ∈ points.toList, Scalar.isNaN (Coefficient.abs (p.eval z)) = false) := by
  obtain ⟨number, above, bounds, value⟩ := Scalar.foldl_maximum (isNaN_zero (R := R))
    (points.toList.map fun z => Coefficient.abs (p.eval z))
  have attained : p.largestResidual points = 0 ∨
      ∃ z ∈ points.toList, p.largestResidual points = Coefficient.abs (p.eval z) := by
    refine value.imp_right fun member => ?_
    obtain ⟨z, isPoint, same⟩ := List.mem_map.mp member
    exact ⟨z, isPoint, same.symm⟩
  have bounds : ∀ z ∈ points.toList, Scalar.isNaN (Coefficient.abs (p.eval z)) = false →
      Coefficient.abs (p.eval z) ≤ p.largestResidual points :=
    fun z isPoint => bounds _ (List.mem_map.mpr ⟨z, isPoint, rfl⟩)
  refine ⟨number, attained, bounds, fun tolerance => ⟨fun below => ⟨?_, ?_⟩, ?_⟩, ?_, ?_⟩
  · exact lt_of_le_of_lt above below
  · intro z isPoint
    cases isNumber : Scalar.isNaN (Coefficient.abs (p.eval z)) with
    | true => exact Or.inl rfl
    | false => exact Or.inr (lt_of_le_of_lt (bounds z isPoint isNumber) below)
  · rintro ⟨positive, small⟩
    obtain isZero | ⟨z, isPoint, same⟩ := attained
    · rw [isZero]
      exact positive
    · refine same ▸ (small z isPoint).resolve_left fun notANumber => ?_
      rw [← same] at notANumber
      exact Bool.false_ne_true (number.symm.trans notANumber)
  · exact fun bounded z isPoint => (le_iff_place.mp (bounded z isPoint)).1
  · exact fun numbers z isPoint => bounds z isPoint (numbers z isPoint)

/-- The third power of a point far out in hardware numbers: its residual is not a number, and the
largest residual is below one. -/
theorem largestResidual_below_notANumber :
    ∃ (p : Poly (Complex Float)) (points : Bag (Complex Float)), ∃ z ∈ points.toList,
      Scalar.isNaN (Coefficient.abs (p.eval z)) = true ∧
      ¬Coefficient.abs (p.eval z) ≤ p.largestResidual points ∧ p.largestResidual points < 1 := by
  refine ⟨⟨[1, 0, 0, 0], List.cons_ne_nil _ _⟩, ⟨[(⟨1e200, 1e200⟩, 1)]⟩, ⟨1e200, 1e200⟩,
    List.mem_singleton.mpr rfl, ?_, ?_, ?_⟩
  · decide +kernel
  · decide +kernel
  · decide +kernel

end Poly

end RootFinding
