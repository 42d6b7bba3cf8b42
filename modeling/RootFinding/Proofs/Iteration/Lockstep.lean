import Mathlib
import RootFinding.Proofs.Outcome
import RootFinding.Search.Iteration

/-!
# Lockstep iteration

Each estimate moves by a quotient that is read off the estimates before alone. `Lockstep` says so
index by index, and a step is the only list that is in lockstep with its estimates. The iterates
therefore form one sequence, whatever the tolerance and the cap are, and a run only chooses its last
member: the first one that a step within the tolerance led to, or the one at the cap. Nothing here
depends on what the operations and the comparison of the coefficients are.
-/

namespace RootFinding.Iteration

open Coefficient

variable {K R : Type}

section Step

/-- Leaving out the index leaves the elements with other indices. -/
theorem map_fst_filter_zipIdx (points : List K) (start index : Nat) :
    ((points.zipIdx start).filter fun (_, place) => place != start + index).map Prod.fst =
      points.eraseIdx index := by
  induction points generalizing start index with
  | nil => rfl
  | cons point points inductionHypothesis =>
      cases index with
      | zero =>
          have others : ∀ entry ∈ points.zipIdx (start + 1), (entry.2 != start + 0) = true := by
            intro entry member
            have above := List.le_snd_of_mem_zipIdx member
            simp only [bne_iff_ne]
            omega
          rw [List.zipIdx_cons, List.filter_cons_of_neg (by simp), List.filter_eq_self.mpr others,
            List.zipIdx_map_fst, List.eraseIdx_zero, List.tail_cons]
      | succ index =>
          have shifted := inductionHypothesis (start + 1) index
          rw [Nat.add_assoc, Nat.add_comm 1 index] at shifted
          rw [List.zipIdx_cons, List.filter_cons_of_pos (by simp), List.map_cons, shifted,
            List.eraseIdx_cons_succ]

variable [Zero K] [One K] [Add K] [Sub K] [Mul K] [Div K]

/-- The differences between a point and the estimates at all other indices, in their order. -/
def differences (points : List K) (index : Nat) (point : K) : List K :=
  (points.zipIdx.filter fun (_, place) => place != index).map fun (other, _) => point - other

omit [Zero K] [Add K] [Div K] in
/-- The divisor of a step is the product of the differences, from one and from left to right. -/
theorem spread_eq_foldl (points : List K) (index : Nat) (point : K) :
    spread points index point = (differences points index point).foldl (· * ·) 1 := by
  have others := map_fst_filter_zipIdx points 0 index
  simp only [Nat.zero_add] at others
  rw [spread, differences, ← others, List.foldl_map, List.foldl_map]

/-- One lockstep update: each estimate moves by the value of the polynomial there over the product
of its differences to the others, and all that is read are the estimates before. -/
structure Lockstep (monic before after : List K) : Prop where
  length : after.length = before.length
  moved : ∀ k (inBefore : k < before.length) (inAfter : k < after.length),
    after[k] = before[k] -
      Poly.horner monic before[k] / (differences before k before[k]).foldl (· * ·) 1

/-- A step is the lockstep update. -/
theorem lockstep_iff {monic before after : List K} :
    Lockstep monic before after ↔ after = step monic before := by
  constructor
  · rintro ⟨length, moved⟩
    apply List.ext_getElem (by rw [length, length_step])
    intro k inAfter inStep
    rw [moved k (length ▸ inAfter) inAfter, ← spread_eq_foldl]
    simp [step]
  · rintro rfl
    refine ⟨length_step monic before, ?_⟩
    intro k inBefore inAfter
    rw [← spread_eq_foldl]
    simp [step]

/-- As many estimates are left as there were before. -/
theorem length_iterate_step (monic points : List K) (n : Nat) :
    ((step monic)^[n] points).length = points.length := by
  induction n generalizing points with
  | zero => rfl
  | succ n inductionHypothesis =>
      rw [Function.iterate_succ_apply, inductionHypothesis, length_step]

end Step

section Stop

variable [Sub K] [Scalar R] [Coefficient K R]

/-- No estimate moves by more than the tolerance. -/
def StaysWithin (tolerance : R) (before after : List K) : Prop :=
  ∀ k (inBefore : k < before.length) (inAfter : k < after.length),
    abs (before[k] - after[k]) ≤ tolerance

/-- The test of a run decides whether every estimate stays within the tolerance. -/
theorem within_iff {tolerance : R} {before after : List K} :
    within tolerance before after = true ↔ StaysWithin tolerance before after := by
  rw [within, List.all_eq_true]
  constructor
  · intro all k inBefore inAfter
    have inZip : k < (before.zip after).length := by
      rw [List.length_zip]
      omega
    have atIndex := all _ (List.getElem_mem inZip)
    rw [List.getElem_zip] at atIndex
    exact of_decide_eq_true atIndex
  · rintro stays ⟨old, new⟩ member
    obtain ⟨k, inZip, isPair⟩ := List.mem_iff_getElem.mp member
    rw [List.length_zip] at inZip
    rw [List.getElem_zip] at isPair
    obtain ⟨rfl, rfl⟩ := Prod.mk.inj isPair
    exact decide_eq_true (stays k (by omega) (by omega))

/-- Where a run through a sequence of estimates stops if it may take so many steps: after the first
step within the tolerance, or at the cap if there is none. -/
inductive StopsAt (Z : Nat → List K) (tolerance : R) (cap : Nat) : Nat → Bool → Prop where
  | settled {last : Nat}
      (first : IsLeast {i | 1 ≤ i ∧ i ≤ cap ∧ StaysWithin tolerance (Z (i - 1)) (Z i)} last) :
      StopsAt Z tolerance cap last true
  | unsettled (never : ∀ i, 1 ≤ i → i ≤ cap → ¬StaysWithin tolerance (Z (i - 1)) (Z i)) :
      StopsAt Z tolerance cap cap false

namespace StopsAt

variable {Z : Nat → List K} {tolerance : R} {cap last : Nat} {settled : Bool}

/-- A step that is not within the tolerance comes before the stop. -/
theorem cons (moves : ¬StaysWithin tolerance (Z 0) (Z 1))
    (stops : StopsAt (fun i => Z (i + 1)) tolerance cap last settled) :
    StopsAt Z tolerance (cap + 1) (last + 1) settled := by
  cases stops with
  | settled first =>
      obtain ⟨⟨positive, capped, stays⟩, least⟩ := first
      rw [Nat.sub_add_cancel positive] at stays
      refine .settled ⟨⟨by omega, by omega, stays⟩, ?_⟩
      rintro i ⟨iPositive, iCapped, iStays⟩
      obtain _ | _ | i := i
      · omega
      · exact absurd iStays moves
      · exact Nat.succ_le_succ (least ⟨by omega, by omega, iStays⟩)
  | unsettled never =>
      refine .unsettled ?_
      intro i positive capped stays
      obtain _ | _ | i := i
      · omega
      · exact moves stays
      · exact never (i + 1) (by omega) (by omega) stays

/-- A sequence, a tolerance and a cap leave one place to stop. -/
theorem unique {other : Nat} {otherSettled : Bool}
    (stops : StopsAt Z tolerance cap last settled)
    (stopsToo : StopsAt Z tolerance cap other otherSettled) :
    last = other ∧ settled = otherSettled := by
  cases stops with
  | settled first =>
      obtain ⟨positive, capped, stays⟩ := first.1
      cases stopsToo with
      | settled otherFirst => exact ⟨first.unique otherFirst, rfl⟩
      | unsettled never => exact absurd stays (never _ positive capped)
  | unsettled never =>
      cases stopsToo with
      | settled otherFirst =>
          obtain ⟨positive, capped, stays⟩ := otherFirst.1
          exact absurd stays (never _ positive capped)
      | unsettled _ => exact ⟨rfl, rfl⟩

/-- Nothing stops after the cap. -/
theorem last_le (stops : StopsAt Z tolerance cap last settled) : last ≤ cap := by
  cases stops with
  | settled first => exact first.1.2.1
  | unsettled _ => exact le_rfl

/-- Nothing stops before its first step. -/
theorem last_pos (stops : StopsAt Z tolerance cap last settled) (positive : 0 < cap) :
    0 < last := by
  cases stops with
  | settled first => exact first.1.1
  | unsettled _ => exact positive

/-- Once the estimates settle, the cap does not matter any more. -/
theorem of_settled (stops : StopsAt Z tolerance cap last true) {other : Nat}
    (enough : last ≤ other) : StopsAt Z tolerance other last true := by
  obtain ⟨⟨positive, capped, stays⟩, least⟩ := stops
  refine .settled ⟨⟨positive, enough, stays⟩, ?_⟩
  rintro i ⟨iPositive, _, iStays⟩
  by_contra earlier
  exact earlier (least ⟨iPositive, by omega, iStays⟩)

/-- A cap before the stop is where a run stops instead. -/
theorem of_lt (stops : StopsAt Z tolerance cap last settled) {other : Nat} (less : other < last) :
    StopsAt Z tolerance other other false := by
  refine .unsettled ?_
  intro i positive capped stays
  cases stops with
  | settled first =>
      have bound := first.2 ⟨positive, by have := first.1.2.1; omega, stays⟩
      omega
  | unsettled never => exact never i positive (by omega) stays

end StopsAt

end Stop

/-- What a run reports and ends with if it stops at this member of a sequence of estimates, when
so many steps were done before: every estimates that a step led to, and then why it stopped. -/
def stopped (Z : Nat → List K) (done last : Nat) (settled : Bool) : Reported K (Outcome K) :=
  ⟨(List.range last).map (fun i => .estimates (Z (i + 1))) ++
      [if settled then .settled (done + last) else .unsettled (done + last)],
    .ok ⟨Z last, done + last, settled⟩⟩

/-- One more step before the stop is one more report of the estimates. -/
theorem stopped_succ (Z : Nat → List K) (done last : Nat) (settled : Bool) :
    stopped Z done (last + 1) settled =
      ⟨.estimates (Z 1) :: (stopped (fun i => Z (i + 1)) (done + 1) last settled).events,
        (stopped (fun i => Z (i + 1)) (done + 1) last settled).outcome⟩ := by
  have steps : done + (last + 1) = done + 1 + last := by omega
  simp only [stopped, steps, List.range_succ_eq_map, List.map_cons, List.map_map, Nat.zero_add,
    List.cons_append]
  rfl

/-- A stopped run reports the estimates after each step in a line of its own, and then once why it
stopped, which is a warning exactly if the estimates have not settled. -/
theorem exists_lines_stopped (Z : Nat → List K) (done last : Nat) (settled : Bool) :
    ∃ (lines : List (Event K)) (terminal : Event K),
      (stopped Z done last settled).events = lines ++ [terminal] ∧
      lines = (List.range last).map (fun i => .estimates (Z (i + 1))) ∧
      (∀ line ∈ lines, line.level = .trace) ∧ terminal.level ≠ .trace ∧
      (terminal.level = .warn ↔ settled = false) := by
  refine ⟨_, _, rfl, rfl, ?_, ?_⟩
  · intro line member
    obtain ⟨i, _, rfl⟩ := List.mem_map.mp member
    rfl
  · cases settled with
    | false => simp [Event.level]
    | true => simp [Event.level]

section Run

variable [Zero K] [One K] [Add K] [Sub K] [Mul K] [Div K] [Scalar R] [Coefficient K R]

/-- A run stops in the sequence of iterates. -/
theorem exists_stopsAt_run (monic : List K) (tolerance : R) (fuel done : Nat) (points : List K) :
    ∃ last settled, StopsAt (fun i => (step monic)^[i] points) tolerance fuel last settled ∧
      run monic tolerance fuel done points =
        stopped (fun i => (step monic)^[i] points) done last settled := by
  induction fuel generalizing done points with
  | zero =>
      refine ⟨0, false, .unsettled ?_, rfl⟩
      intro i positive capped
      omega
  | succ fuel inductionHypothesis =>
      by_cases stays : StaysWithin tolerance points (step monic points)
      · refine ⟨1, true, .settled ⟨⟨le_rfl, by omega, stays⟩, fun i member => member.1⟩, ?_⟩
        rw [run]
        simp only [within_iff.mpr stays, if_true]
        rfl
      · have moves : within tolerance points (step monic points) = false := by
          rw [Bool.eq_false_iff, ne_eq, within_iff]
          exact stays
        obtain ⟨last, settled, stops, isRun⟩ :=
          inductionHypothesis (done + 1) (step monic points)
        refine ⟨last + 1, settled, StopsAt.cons stays stops, ?_⟩
        rw [run]
        simp only [moves, Bool.false_eq_true, if_false, isRun, stopped_succ]
        rfl

end Run

section Iterate

variable [Zero K] [One K] [Add K] [Sub K] [Mul K] [Div K] [BEq K] [Scalar R] [Coefficient K R]

/-- The coefficients that an iteration works with: the leading one is divided out unless it is one
already. -/
def normalized (lead : K) (rest : List K) : List K :=
  if lead == 1 then lead :: rest else (lead :: rest).map (· / lead)

/-- An iteration is a run from the seeds. -/
theorem iterate_eq_run (lead : K) (rest : List K) (tolerance : R) (cap : Nat) :
    iterate lead rest tolerance cap =
      run (normalized lead rest) tolerance cap 0 (seeds rest.length) := rfl

/-- The estimates after so many steps from the seeds. -/
def iterates (lead : K) (rest : List K) (steps : Nat) : List K :=
  (step (normalized lead rest))^[steps] (seeds rest.length)

/-- An iteration is determined by where it stops. -/
theorem iterate_eq_stopped {lead : K} {rest : List K} {tolerance : R} {cap last : Nat}
    {settled : Bool} (stops : StopsAt (iterates lead rest) tolerance cap last settled) :
    iterate lead rest tolerance cap = stopped (iterates lead rest) 0 last settled := by
  obtain ⟨found, foundSettled, foundStops, isRun⟩ :=
    exists_stopsAt_run (normalized lead rest) tolerance cap 0 (seeds rest.length)
  obtain ⟨rfl, rfl⟩ := stops.unique foundStops
  rw [iterate_eq_run, isRun]
  rfl

/-- An iteration runs through the one lockstep sequence from the seeds and stops after the first
step within the tolerance, or at the cap if there is none before. It reports the iterates one by one
and then once why it stopped, which is a warning exactly if the estimates have not settled. A larger
cap leaves a settled result as it is, events included, and a smaller one ends with the iterate that
is reached there. All this for any arithmetic, tolerance and leading coefficient; a negligible
leading coefficient is only refused before. -/
theorem iterate_stops_at_first_settled (lead next : K) (rest : List K) (tolerance : R)
    (cap : Nat) :
    (isNegligible lead = false → solve (lead :: next :: rest) tolerance cap =
      iterate lead (next :: rest) tolerance cap) ∧
    iterates lead (next :: rest) 0 = seeds (next :: rest).length ∧
    (∀ i, Lockstep (normalized lead (next :: rest)) (iterates lead (next :: rest) i)
      (iterates lead (next :: rest) (i + 1))) ∧
    ∃ last settled, StopsAt (iterates lead (next :: rest)) tolerance cap last settled ∧
      (iterate lead (next :: rest) tolerance cap).outcome =
        .ok ⟨iterates lead (next :: rest) last, last, settled⟩ ∧
      (∃ (lines : List (Event K)) (terminal : Event K),
        (iterate lead (next :: rest) tolerance cap).events = lines ++ [terminal] ∧
        lines = (List.range last).map
          (fun i => .estimates (iterates lead (next :: rest) (i + 1))) ∧
        (∀ line ∈ lines, line.level = .trace) ∧ terminal.level ≠ .trace ∧
        (terminal.level = .warn ↔ settled = false)) ∧
      (settled = true → ∀ larger, cap ≤ larger →
        iterate lead (next :: rest) tolerance larger =
          iterate lead (next :: rest) tolerance cap) ∧
      ∀ smaller, smaller < last → (iterate lead (next :: rest) tolerance smaller).outcome =
        .ok ⟨iterates lead (next :: rest) smaller, smaller, false⟩ := by
  obtain ⟨last, settled, stops, _⟩ := exists_stopsAt_run
    (normalized lead (next :: rest)) tolerance cap 0 (seeds (next :: rest).length)
  change StopsAt (iterates lead (next :: rest)) tolerance cap last settled at stops
  refine ⟨?_, rfl, ?_, last, settled, stops, ?_, ?_, ?_, ?_⟩
  · intro kept
    rw [solve, kept]
    rfl
  · intro i
    rw [lockstep_iff]
    exact Function.iterate_succ_apply' _ _ _
  · rw [iterate_eq_stopped stops, stopped, Nat.zero_add]
  · rw [iterate_eq_stopped stops]
    exact exists_lines_stopped _ 0 last settled
  · rintro rfl larger enough
    rw [iterate_eq_stopped stops]
    exact iterate_eq_stopped (stops.of_settled (stops.last_le.trans enough))
  · intro smaller less
    rw [iterate_eq_stopped (stops.of_lt less), stopped, Nat.zero_add]

end Iterate

end RootFinding.Iteration
