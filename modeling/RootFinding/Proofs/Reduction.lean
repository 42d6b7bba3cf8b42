import Mathlib
import RootFinding.Poly.Basic
import RootFinding.Search.Reduction

/-!
# Reduction as a two-sided trim

On a list with a coefficient that is not negligible, reduction takes off the longest negligible
front and then the longest negligible back. The three parts put the list together again, the core
begins and ends with coefficients that are not negligible, and that determines it: whatever
negligible coefficients are put around a list, the core stays the same, and reducing a core takes
nothing off. `zeros` counts the back.
-/

namespace RootFinding

namespace Reduction

open Coefficient

variable {K R : Type} [Coefficient K R]

/-- Some coefficient of a list is not negligible. -/
def Substantial (coeffs : List K) : Prop := ∃ c ∈ coeffs, isNegligible c = false

/-- A list is substantial exactly if it is not all negligible. -/
theorem substantial_iff_all (coeffs : List K) :
    Substantial coeffs ↔ coeffs.all isNegligible = false := by
  simp [Substantial, List.all_eq_false]

/-- Substantial coefficients are not empty. -/
theorem Substantial.ne_nil {coeffs : List K} (substantial : Substantial coeffs) : coeffs ≠ [] := by
  rintro rfl
  obtain ⟨c, member, _⟩ := substantial
  cases member

/-- Coefficients around substantial ones leave them substantial. -/
theorem Substantial.append {coeffs : List K} (substantial : Substantial coeffs)
    (front back : List K) : Substantial (front ++ coeffs ++ back) := by
  obtain ⟨c, member, kept⟩ := substantial
  exact ⟨c, by simp [member], kept⟩

/-- The reverse of substantial coefficients is substantial. -/
theorem Substantial.reverse {coeffs : List K} (substantial : Substantial coeffs) :
    Substantial coeffs.reverse := by
  obtain ⟨c, member, kept⟩ := substantial
  exact ⟨c, List.mem_reverse.mpr member, kept⟩

/-- What is taken off a substantial list while it is negligible leaves a substantial list. -/
theorem Substantial.dropWhile {coeffs : List K} (substantial : Substantial coeffs) :
    Substantial (coeffs.dropWhile isNegligible) := by
  obtain ⟨c, member, kept⟩ := substantial
  rw [← List.takeWhile_append_dropWhile (p := isNegligible) (l := coeffs),
    List.mem_append] at member
  rcases member with front | rest
  · have negligible := List.mem_takeWhile_imp front
    rw [kept] at negligible
    cases negligible
  · exact ⟨c, rest, kept⟩

/-- On a substantial list the rule that one coefficient stays is never needed at the front. -/
theorem trimFront_eq_dropWhile {coeffs : List K} (substantial : Substantial coeffs) :
    trimFront coeffs = coeffs.dropWhile isNegligible := by
  induction coeffs using trimFront.induct with
  | case1 c next rest negligible inductionHypothesis =>
      have substantialRest : Substantial (next :: rest) := by
        obtain ⟨kept, member, isKept⟩ := substantial
        rcases List.mem_cons.mp member with rfl | memberRest
        · rw [negligible] at isKept
          cases isKept
        · exact ⟨kept, memberRest, isKept⟩
      rw [trimFront, if_pos negligible, List.dropWhile_cons_of_pos negligible]
      exact inductionHypothesis substantialRest
  | case2 c next rest kept =>
      rw [trimFront, if_neg kept, List.dropWhile_cons_of_neg kept]
  | case3 coeffs short =>
      -- A last coefficient is kept whatever it is, so that it has to be substantial itself.
      obtain ⟨kept, member, isKept⟩ := substantial
      cases coeffs with
      | nil => cases member
      | cons c rest =>
          cases rest with
          | nil =>
              obtain rfl := List.mem_singleton.mp member
              simp [trimFront, isKept]
          | cons next rest => exact absurd rfl (short c next rest)

/-- On a substantial list the rule that one coefficient stays is never needed at the back. -/
theorem trimBack_eq_rdropWhile {coeffs : List K} (substantial : Substantial coeffs) :
    trimBack coeffs = coeffs.rdropWhile isNegligible := by
  rw [trimBack, trimFront_eq_dropWhile substantial.reverse, List.rdropWhile]

/-- The core of a substantial list is the list without its negligible front and back. -/
theorem core_ofCoeffs {coeffs : List K} (substantial : Substantial coeffs) :
    (ofCoeffs coeffs).core = (coeffs.dropWhile isNegligible).rdropWhile isNegligible := by
  rw [ofCoeffs, trimFront_eq_dropWhile substantial, trimBack_eq_rdropWhile substantial.dropWhile]

/-- The zeros of a substantial list are the negligible coefficients at its back. -/
theorem zeros_ofCoeffs {coeffs : List K} (substantial : Substantial coeffs) :
    (ofCoeffs coeffs).zeros =
      ((coeffs.dropWhile isNegligible).rtakeWhile isNegligible).length := by
  have parts := congrArg List.length
    (List.rdropWhile_append_rtakeWhile (p := isNegligible) (l := coeffs.dropWhile isNegligible))
  rw [List.length_append, ← core_ofCoeffs substantial] at parts
  have counted : (ofCoeffs coeffs).zeros =
      (coeffs.dropWhile isNegligible).length - (ofCoeffs coeffs).core.length := by
    rw [← trimFront_eq_dropWhile substantial]
    rfl
  omega

/-- The core together with the zeros is what a negligible front leaves. -/
theorem length_core_add_zeros {coeffs : List K} (substantial : Substantial coeffs) :
    (ofCoeffs coeffs).core.length + (ofCoeffs coeffs).zeros =
      (coeffs.dropWhile isNegligible).length := by
  rw [core_ofCoeffs substantial, zeros_ofCoeffs substantial, ← List.length_append,
    List.rdropWhile_append_rtakeWhile]

/-- A substantial list is its negligible front, its core, and as many negligible coefficients as
there are zeros. -/
theorem exists_split {coeffs : List K} (substantial : Substantial coeffs) :
    ∃ front back, coeffs = front ++ (ofCoeffs coeffs).core ++ back ∧
      (∀ c ∈ front, isNegligible c = true) ∧ (∀ c ∈ back, isNegligible c = true) ∧
      back.length = (ofCoeffs coeffs).zeros := by
  refine ⟨coeffs.takeWhile isNegligible,
    (coeffs.dropWhile isNegligible).rtakeWhile isNegligible, ?_, ?_, ?_, ?_⟩
  · rw [core_ofCoeffs substantial, List.append_assoc, List.rdropWhile_append_rtakeWhile,
      List.takeWhile_append_dropWhile]
  · exact fun c member => List.mem_takeWhile_imp member
  · exact fun c member => List.mem_rtakeWhile_imp member
  · rw [zeros_ofCoeffs substantial]

/-- A list that begins and ends with coefficients that are not negligible. -/
structure Tight (core : List K) : Prop where
  first : ∃ lead rest, core = lead :: rest ∧ isNegligible lead = false
  last : ∃ init final, core = init ++ [final] ∧ isNegligible final = false

/-- A tight core is not empty. -/
theorem Tight.ne_nil {core : List K} (tight : Tight core) : core ≠ [] := by
  obtain ⟨lead, rest, rfl, _⟩ := tight.first
  exact List.cons_ne_nil lead rest

/-- A tight core is substantial. -/
theorem Tight.substantial {core : List K} (tight : Tight core) : Substantial core := by
  obtain ⟨lead, rest, rfl, kept⟩ := tight.first
  exact ⟨lead, List.mem_cons_self, kept⟩

/-- The core of a substantial list begins and ends with coefficients that are not negligible. -/
theorem tight_core {coeffs : List K} (substantial : Substantial coeffs) :
    Tight (ofCoeffs coeffs).core := by
  have trimmed := substantial.dropWhile
  rw [core_ofCoeffs substantial]
  have nonempty : (coeffs.dropWhile isNegligible).rdropWhile isNegligible ≠ [] := by
    intro empty
    obtain ⟨c, member, kept⟩ := trimmed
    rw [List.rdropWhile_eq_nil_iff.mp empty c member] at kept
    cases kept
  constructor
  · -- The front of the core is the front of the list that the back was taken off.
    obtain ⟨back, parts⟩ := List.rdropWhile_prefix isNegligible (l := coeffs.dropWhile isNegligible)
    obtain ⟨lead, rest, shape⟩ := List.exists_cons_of_ne_nil nonempty
    refine ⟨lead, rest, shape, ?_⟩
    rw [shape, List.cons_append] at parts
    have first := List.head?_dropWhile_not isNegligible coeffs
    rw [← parts] at first
    simpa using first
  · have final := List.rdropWhile_last_not isNegligible _ nonempty
    exact ⟨_, _, (List.dropLast_append_getLast nonempty).symm, by simpa using final⟩

/-- Around a tight core every negligible front and back is taken off, and no more. -/
theorem ofCoeffs_split (front : List K) {core : List K} (back : List K) (tight : Tight core)
    (frontNegligible : ∀ c ∈ front, isNegligible c)
    (backNegligible : ∀ c ∈ back, isNegligible c) :
    (ofCoeffs (front ++ core ++ back)).core = core ∧
      (ofCoeffs (front ++ core ++ back)).zeros = back.length := by
  have substantial := tight.substantial.append front back
  have trimmed : (front ++ core ++ back).dropWhile isNegligible = core ++ back := by
    obtain ⟨lead, rest, rfl, kept⟩ := tight.first
    rw [List.append_assoc, List.dropWhile_append_of_pos frontNegligible, List.cons_append,
      List.dropWhile_cons_of_neg (by simp [kept])]
  have coreHere : (ofCoeffs (front ++ core ++ back)).core = core := by
    obtain ⟨init, final, shape, kept⟩ := tight.last
    rw [core_ofCoeffs substantial, trimmed, List.rdropWhile, List.reverse_append,
      List.dropWhile_append_of_pos (by simpa using backNegligible), shape, List.reverse_append,
      List.reverse_singleton, List.singleton_append, List.dropWhile_cons_of_neg (by simp [kept]),
      List.reverse_cons, List.reverse_reverse]
  have counted := length_core_add_zeros substantial
  rw [coreHere, trimmed, List.length_append] at counted
  exact ⟨coreHere, by omega⟩

/-- Negligible coefficients put around a substantial list leave its core as it is; those at the
back count as zeros. -/
theorem ofCoeffs_padded {front coeffs back : List K} (frontNegligible : ∀ c ∈ front, isNegligible c)
    (substantial : Substantial coeffs) (backNegligible : ∀ c ∈ back, isNegligible c) :
    (ofCoeffs (front ++ coeffs ++ back)).core = (ofCoeffs coeffs).core ∧
      (ofCoeffs (front ++ coeffs ++ back)).zeros = (ofCoeffs coeffs).zeros + back.length := by
  obtain ⟨ownFront, ownBack, parts, ownFrontNegligible, ownBackNegligible, zeros⟩ :=
    exists_split substantial
  have regrouped : front ++ coeffs ++ back =
      (front ++ ownFront) ++ (ofCoeffs coeffs).core ++ (ownBack ++ back) := by
    conv_lhs => rw [parts]
    simp only [List.append_assoc]
  have split := ofCoeffs_split (front ++ ownFront) (ownBack ++ back) (tight_core substantial)
    (List.forall_mem_append.mpr ⟨frontNegligible, ownFrontNegligible⟩)
    (List.forall_mem_append.mpr ⟨ownBackNegligible, backNegligible⟩)
  rw [← regrouped, List.length_append, zeros] at split
  exact split

/-- Reducing a tight list takes nothing off. -/
theorem ofCoeffs_of_tight {core : List K} (tight : Tight core) :
    (ofCoeffs core).core = core ∧ (ofCoeffs core).zeros = 0 := by
  simpa using ofCoeffs_split [] [] tight (by simp) (by simp)

/-- Reducing a core again takes nothing off. -/
theorem ofCoeffs_core {coeffs : List K} (substantial : Substantial coeffs) :
    ofCoeffs (ofCoeffs coeffs).core = ⟨[], (ofCoeffs coeffs).core, 0⟩ := by
  have tight := tight_core substantial
  obtain ⟨lead, rest, shape, kept⟩ := tight.first
  obtain ⟨sameCore, noZeros⟩ := ofCoeffs_of_tight tight
  have noFront : (ofCoeffs (ofCoeffs coeffs).core).dropped = [] := by
    rw [ofCoeffs, trimFront_eq_dropWhile tight.substantial, shape,
      List.dropWhile_cons_of_neg (by simp [kept]), Nat.sub_self, List.take_zero]
  calc ofCoeffs (ofCoeffs coeffs).core
      = ⟨(ofCoeffs (ofCoeffs coeffs).core).dropped, (ofCoeffs (ofCoeffs coeffs).core).core,
          (ofCoeffs (ofCoeffs coeffs).core).zeros⟩ := rfl
    _ = ⟨[], (ofCoeffs coeffs).core, 0⟩ := by rw [noFront, sameCore, noZeros]

end Reduction

namespace Poly

open Coefficient Reduction

variable {K R : Type} [Coefficient K R]

/-- The substantial lists are the coefficients of polynomials. -/
theorem ofList?_eq_ok_iff {coeffs : List K} {p : Poly K} :
    ofList? coeffs = .ok p ↔ Substantial coeffs ∧ p.coeffs = coeffs := by
  cases coeffs with
  | nil => simp [ofList?, Substantial]
  | cons c cs =>
      rw [substantial_iff_all, ofList?]
      split
      · next negligible => simp [negligible]
      · next kept =>
        rw [Except.ok.injEq]
        constructor
        · rintro rfl
          exact ⟨Bool.eq_false_iff.mpr kept, rfl⟩
        · rintro ⟨_, same⟩
          cases p
          cases same
          rfl

end Poly

end RootFinding
