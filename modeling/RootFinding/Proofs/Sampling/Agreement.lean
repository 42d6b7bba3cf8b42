import RootFinding.Proofs.Bag.Matching
import RootFinding.Proofs.Tolerance.Numbers
import RootFinding.Sampling.TestCase

/-!
# Taking the nearest root

Each expected root in turn takes the nearest root that is left. What it takes is in the list
whenever something is left, and there is as much left as is expected, so the check never runs out. A
check that succeeds has paired the roots. It finds a pairing if there is one and different expected
roots are far enough apart: then whoever else could have had what a root takes is an equal root, and
can have what that root would have had.
-/

namespace RootFinding

section Nearest

variable {K R : Type} [Sub K] [Scalar R] [Coefficient K R]

/-- A last candidate is taken if it is nearer than all before it. -/
theorem nearest_append_singleton (target : K) (candidates : List K) (candidate : K) :
    nearest target (candidates ++ [candidate]) =
      if Coefficient.abs (target - candidate) < (nearest target candidates).2 then
        (candidates.length, Coefficient.abs (target - candidate))
      else nearest target candidates := by
  rw [nearest, List.zipIdx_append, List.foldl_append, Nat.zero_add]
  rfl

/-- The nearest is a candidate with its distance, unless all candidates are passed over. -/
theorem nearest_cases (target : K) (candidates : List K) :
    nearest target candidates = (0, Scalar.largest) ∨
      ∃ candidate, candidates[(nearest target candidates).1]? = some candidate ∧
        (nearest target candidates).2 = Coefficient.abs (target - candidate) := by
  induction candidates using List.reverseRecOn with
  | nil => exact Or.inl rfl
  | append_singleton candidates last inductionHypothesis =>
      rw [nearest_append_singleton]
      split
      · exact Or.inr ⟨last, List.getElem?_concat_length, rfl⟩
      · refine inductionHypothesis.imp_right ?_
        rintro ⟨candidate, here, distance⟩
        have inFront := (List.getElem?_eq_some_iff.mp here).1
        exact ⟨candidate, (List.getElem?_append_left inFront).trans here, distance⟩

/-- Whatever the scalars, what is taken out of a list is in it. -/
theorem nearest_inRange (target : K) {candidates : List K} (nonempty : candidates ≠ []) :
    (nearest target candidates).1 < candidates.length := by
  rcases nearest_cases target candidates with passed | ⟨_, here, _⟩
  · rw [passed]
    exact List.length_pos_of_ne_nil nonempty
  · exact (List.getElem?_eq_some_iff.mp here).1

/-- Each target takes the nearest root that is left, unless even that is too far away. -/
theorem takeNearest_cons (tolerance : R) (target : K) (targets found : List K) :
    takeNearest tolerance (target :: targets) found =
      if tolerance < (nearest target found).2 then false
      else takeNearest tolerance targets (found.eraseIdx (nearest target found).1) :=
  rfl

/-- One round of the check: what is expected and what is left, before and after the first expected
root has taken the nearest. -/
inductive CheckStep (tolerance : R) : List K × List K → List K × List K → Prop
  | take {target : K} {targets found : List K} (near : ¬tolerance < (nearest target found).2) :
      CheckStep tolerance (target :: targets, found)
        (targets, found.eraseIdx (nearest target found).1)

/-- A round leaves as much as is expected. -/
theorem CheckStep.length_eq {tolerance : R} {before after : List K × List K}
    (step : CheckStep tolerance before after) (length : before.1.length = before.2.length) :
    after.1.length = after.2.length := by
  cases step with
  | take near =>
      rename_i target targets found
      have nonempty : found ≠ [] := by
        rintro rfl
        cases length
      rw [List.length_eraseIdx, if_pos (nearest_inRange target nonempty)]
      exact Nat.eq_sub_of_add_eq length

/-- All rounds leave as much as is expected. -/
theorem length_eq_of_run {tolerance : R} {first last : List K × List K}
    (run : Relation.ReflTransGen (CheckStep tolerance) first last)
    (length : first.1.length = first.2.length) : last.1.length = last.2.length := by
  induction run with
  | refl => exact length
  | tail _ step inductionHypothesis => exact step.length_eq inductionHypothesis

/-- The check succeeds exactly if its rounds lead to nothing expected. -/
theorem takeNearest_iff_run (tolerance : R) (targets found : List K) :
    takeNearest tolerance targets found = true ↔
      ∃ left, Relation.ReflTransGen (CheckStep tolerance) (targets, found) ([], left) := by
  induction targets generalizing found with
  | nil => exact ⟨fun _ => ⟨found, .refl⟩, fun _ => rfl⟩
  | cons target targets inductionHypothesis =>
      rw [takeNearest_cons]
      split
      · next far =>
        refine ⟨fun impossible => absurd impossible Bool.false_ne_true, ?_⟩
        rintro ⟨left, run⟩
        obtain impossible | ⟨_, ⟨near⟩, _⟩ := run.cases_head
        · cases impossible
        · exact absurd far near
      · next near =>
        rw [inductionHypothesis]
        constructor
        · rintro ⟨left, run⟩
          exact ⟨left, .head (.take near) run⟩
        · rintro ⟨left, run⟩
          obtain impossible | ⟨_, ⟨_⟩, rest⟩ := run.cases_head
          · cases impossible
          · exact ⟨left, rest⟩

end Nearest

/-- The real numbers, with one of them as the distance from which on candidates are passed over. -/
def Capped (_largest : ℝ) : Type := ℝ

noncomputable instance {largest : ℝ} : RealFunctions (Capped largest) :=
  { tolerantFunctions 0 with largest := largest }

namespace Capped

variable {largest : ℝ} {tolerance : Capped largest}

/-- The real number that a scalar is. -/
def toReal (x : Capped largest) : ℝ := x

/-- The points of the plane. -/
abbrev Point (largest : ℝ) : Type := Complex (Capped largest)

/-- The element of the complex field with the same parts. -/
def toField (z : Point largest) : ℂ := ⟨toReal z.re, toReal z.im⟩

/-- The magnitude of a difference is the distance. -/
theorem abs_sub_eq (z w : Point largest) :
    toReal (Coefficient.abs (z - w)) = dist (toField z) (toField w) := by
  rw [dist_eq_norm, Complex.norm_eq_sqrt_sq_add_sq]
  rfl

/-- Roots within a tolerance of each other. -/
def Within (tolerance : Capped largest) (z w : Point largest) : Prop :=
  dist (toField z) (toField w) ≤ toReal tolerance

/-- Different roots are more than twice a tolerance apart. -/
def Separated (tolerance : Capped largest) (roots : List (Point largest)) : Prop :=
  ∀ r ∈ roots, ∀ s ∈ roots, r ≠ s →
    toReal tolerance + toReal tolerance < dist (toField r) (toField s)

/-- No candidate is nearer than the nearest. -/
theorem nearest_le (target : Point largest)
    {candidates : List (Point largest)} {candidate : Point largest}
    (member : candidate ∈ candidates) :
    toReal (nearest target candidates).2 ≤ dist (toField target) (toField candidate) := by
  induction candidates using List.reverseRecOn with
  | nil => cases member
  | append_singleton candidates last inductionHypothesis =>
      rw [nearest_append_singleton]
      split
      · next nearer =>
        have nearer : toReal _ < toReal (nearest target candidates).2 := nearer
        rw [abs_sub_eq] at nearer ⊢
        rcases List.mem_append.mp member with before | isLast
        · exact nearer.le.trans (inductionHypothesis before)
        · rw [List.mem_singleton.mp isLast]
      · next notNearer =>
        have notNearer : ¬toReal _ < toReal (nearest target candidates).2 := notNearer
        rw [abs_sub_eq] at notNearer
        rcases List.mem_append.mp member with before | isLast
        · exact inductionHypothesis before
        · rw [List.mem_singleton.mp isLast]
          exact not_lt.mp notNearer

/-- What a root takes is within the tolerance of it. -/
theorem exists_partner (below : tolerance < Scalar.largest) {target : Point largest}
    {found : List (Point largest)}
    (near : toReal (nearest target found).2 ≤ toReal tolerance) :
    ∃ partner, (partner :: found.eraseIdx (nearest target found).1).Perm found ∧
      Within tolerance target partner := by
  rcases nearest_cases target found with passed | ⟨partner, here, distance⟩
  · rw [passed] at near
    have notBelow : ¬toReal tolerance < toReal (Scalar.largest : Capped largest) := not_lt.mpr near
    exact absurd below notBelow
  · obtain ⟨inRange, rfl⟩ := List.getElem?_eq_some_iff.mp here
    refine ⟨_, List.getElem_cons_eraseIdx_perm inRange, ?_⟩
    rwa [Within, ← abs_sub_eq, ← distance]

/-- A check that succeeds has paired the roots. -/
theorem rel_of_takeNearest (below : tolerance < Scalar.largest)
    {targets found : List (Point largest)} (length : targets.length = found.length)
    (agrees : takeNearest tolerance targets found = true) :
    Multiset.Rel (Within tolerance) (targets : Multiset (Point largest))
      (found : Multiset (Point largest)) := by
  induction targets generalizing found with
  | nil =>
      rw [List.length_eq_zero_iff.mp length.symm]
      exact Multiset.Rel.zero
  | cons target targets inductionHypothesis =>
      rw [takeNearest_cons] at agrees
      split at agrees
      · cases agrees
      · next near =>
        have after := (CheckStep.take near).length_eq length
        obtain ⟨partner, taken, within⟩ := exists_partner below (not_lt.mp near)
        rw [← Multiset.coe_eq_coe.mpr taken]
        exact Multiset.Rel.cons within (inductionHypothesis after agrees)

/-- Of separated roots, whoever else could have what a root takes is an equal root. -/
theorem exchange {target other partner spare : Point largest}
    {targets : List (Point largest)} (separated : Separated tolerance (target :: targets))
    (member : other ∈ targets) (within : Within tolerance target partner)
    (otherWithin : Within tolerance other partner) (spareWithin : Within tolerance target spare) :
    Within tolerance other spare := by
  have close : dist (toField target) (toField other) ≤ toReal tolerance + toReal tolerance := by
    calc dist (toField target) (toField other)
        ≤ dist (toField target) (toField partner) + dist (toField other) (toField partner) :=
          dist_triangle_right _ _ _
      _ ≤ toReal tolerance + toReal tolerance := add_le_add within otherWithin
  have equal : target = other := by
    by_contra different
    exact absurd (separated target List.mem_cons_self other (List.mem_cons_of_mem target member)
      different) (not_lt.mpr close)
  rwa [← equal]

/-- Separated roots that can be paired are paired by the check. -/
theorem takeNearest_of_rel (below : tolerance < Scalar.largest)
    {targets found : List (Point largest)} (separated : Separated tolerance targets)
    (paired : Multiset.Rel (Within tolerance) (targets : Multiset (Point largest))
      (found : Multiset (Point largest))) :
    takeNearest tolerance targets found = true := by
  induction targets generalizing found with
  | nil => rfl
  | cons target targets inductionHypothesis =>
      rw [← Multiset.cons_coe] at paired
      obtain ⟨candidate, rest, candidateWithin, _, parts⟩ := Multiset.rel_cons_left.mp paired
      have member : candidate ∈ found := by
        rw [← Multiset.mem_coe, parts]
        exact Multiset.mem_cons_self candidate rest
      have near : toReal (nearest target found).2 ≤ toReal tolerance :=
        (nearest_le target member).trans candidateWithin
      obtain ⟨partner, taken, within⟩ := exists_partner below near
      have notFar : ¬tolerance < (nearest target found).2 := not_lt_of_ge near
      rw [takeNearest_cons, if_neg notFar]
      refine inductionHypothesis (fun r isRoot s isRootToo => ?_) ?_
      · exact separated r (List.mem_cons_of_mem target isRoot) s
          (List.mem_cons_of_mem target isRootToo)
      -- The pairing may give the root another partner than the nearest: that one is left for
      -- whoever had the nearest.
      · rw [← Multiset.coe_eq_coe.mpr taken, ← Multiset.cons_coe] at paired
        exact Bag.rel_of_rel_cons paired fun other isOther spare _ otherWithin spareWithin =>
          exchange separated (Multiset.mem_coe.mp isOther) within otherWithin spareWithin

/-- Roots agree exactly if there are as many as expected and every target finds one. -/
theorem rootsAgree_iff {found : Bag (Point largest)}
    {expected : List (Point largest)} :
    rootsAgree found expected tolerance = true ↔
      found.toList.length = expected.length ∧
        takeNearest tolerance expected found.toList = true := by
  rw [rootsAgree, Bool.and_eq_true, beq_iff_eq]

/-- Roots that agree are paired off within the tolerance. -/
theorem rel_of_rootsAgree (below : tolerance < Scalar.largest) {found : Bag (Point largest)}
    {expected : List (Point largest)} (agrees : rootsAgree found expected tolerance = true) :
    Multiset.Rel (Within tolerance) (expected : Multiset (Point largest))
      (found.toList : Multiset (Point largest)) := by
  obtain ⟨length, taken⟩ := rootsAgree_iff.mp agrees
  exact rel_of_takeNearest below length.symm taken

/-- The check of roots in exact arithmetic, with a tolerance below the largest distance. In every
round there is something to take and its index is in range, and the check succeeds exactly if its
rounds use up both lists. Then it has paired all expected roots with all roots found, each pair
within the tolerance. If different expected roots are more than twice the tolerance apart the check
succeeds exactly if there is a pairing, in whatever order the roots are expected and whatever order
the roots found are walked in. -/
theorem rootsAgree_pairs (below : tolerance < Scalar.largest) (found : Bag (Point largest))
    (expected : List (Point largest)) :
    (found.toList.length = expected.length → ∀ target targets left,
      Relation.ReflTransGen (CheckStep tolerance) (expected, found.toList)
        (target :: targets, left) → (nearest target left).1 < left.length) ∧
    (rootsAgree found expected tolerance = true ↔ found.toList.length = expected.length ∧
      Relation.ReflTransGen (CheckStep tolerance) (expected, found.toList) ([], [])) ∧
    (rootsAgree found expected tolerance = true →
      ∃ partners : List (Point largest), partners.Perm found.toList ∧
        List.Forall₂ (Within tolerance) expected partners) ∧
    (Separated tolerance expected →
      ∀ (rearranged : Bag (Point largest)) (reordered : List (Point largest)),
        rearranged.toList.Perm found.toList → reordered.Perm expected →
          (rootsAgree rearranged reordered tolerance = true ↔
            ∃ partners : List (Point largest), partners.Perm found.toList ∧
              List.Forall₂ (Within tolerance) expected partners)) := by
  refine ⟨fun length target targets left run => ?_, ?_,
    fun agrees => Bag.rel_coe_iff.mp (rel_of_rootsAgree below agrees),
    fun separated rearranged reordered sameFound sameExpected => ?_⟩
  · refine nearest_inRange target ?_
    rintro rfl
    cases length_eq_of_run run length.symm
  · rw [rootsAgree_iff, takeNearest_iff_run]
    refine and_congr_right fun length => ⟨?_, fun run => ⟨[], run⟩⟩
    rintro ⟨left, run⟩
    have none : left = [] := List.length_eq_zero_iff.mp (length_eq_of_run run length.symm).symm
    rwa [none] at run
  · rw [← Bag.rel_coe_iff, ← Multiset.coe_eq_coe.mpr sameFound,
      ← Multiset.coe_eq_coe.mpr sameExpected]
    refine ⟨rel_of_rootsAgree below,
      fun paired => rootsAgree_iff.mpr ⟨?_, takeNearest_of_rel below ?_ paired⟩⟩
    · exact (Multiset.card_eq_card_of_rel paired).symm
    · intro r isRoot s isRootToo
      exact separated r (sameExpected.mem_iff.mp isRoot) s (sameExpected.mem_iff.mp isRootToo)

/-- Two roots one apart, found in the other order. -/
theorem rootsAgree_pairs_swapped :
    (0.25 : Capped 2) < Scalar.largest ∧ Separated (0.25 : Capped 2) [1, 0] ∧
      rootsAgree ⟨[(0, 1), (1, 1)]⟩ [1, (0 : Point 2)] (0.25 : Capped 2) = true := by
  have below : (0.25 : Capped 2) < Scalar.largest := by
    change (0.25 : ℝ) < 2
    norm_num
  have tolerance : toReal (0.25 : Capped 2) + toReal (0.25 : Capped 2) < 1 := by
    change (0.25 : ℝ) + 0.25 < 1
    norm_num
  have apart : dist (toField (1 : Point 2)) (toField (0 : Point 2)) = 1 :=
    (dist_zero_right (1 : ℂ)).trans norm_one
  have separated : Separated (0.25 : Capped 2) [1, 0] := by
    intro r isRoot s isRootToo different
    simp only [List.mem_cons, List.not_mem_nil, or_false] at isRoot isRootToo
    rcases isRoot with rfl | rfl <;> rcases isRootToo with rfl | rfl
    · exact absurd rfl different
    · rwa [apart]
    · rwa [dist_comm, apart]
    · exact absurd rfl different
  have self (z : Point 2) : Within (0.25 : Capped 2) z z := by
    rw [Within, dist_self]
    change (0 : ℝ) ≤ 0.25
    norm_num
  refine ⟨below, separated, ?_⟩
  exact ((rootsAgree_pairs below ⟨[(0, 1), (1, 1)]⟩ [1, 0]).2.2.2 separated _ _ (.refl _)
    (.refl _)).mpr ⟨[1, 0], .swap 0 1 [], .cons (self 1) (.cons (self 0) .nil)⟩

end Capped

end RootFinding
