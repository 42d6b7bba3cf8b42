/-!
# Sets of code points

A set of code points is the list of its maximal ranges in ascending order, so a look-up ends at the
first range above the point. The tables of character properties are such sets.
-/

namespace RootFinding.Text

/-- A set of code points: the first and the last point of each range. -/
abbrev CodePoints := List (Nat × Nat)

namespace CodePoints

/-- Whether a point is in an ascending set. -/
def contains : CodePoints → Nat → Bool
  | [], _ => false
  | (first, last) :: rest, point =>
      if point < first then false else point ≤ last || contains rest point

/-- Whether no range is reversed, and a gap precedes each range but the first. -/
def isAscending : CodePoints → Bool
  | [] => true
  | (first, last) :: rest =>
      first ≤ last && rest.head?.all (fun range => last + 1 < range.1) && isAscending rest

/-- A point below the first range of an ascending set is in none of its ranges. -/
theorem any_eq_false_of_lt {first last point : Nat} {rest : CodePoints}
    (ascending : isAscending ((first, last) :: rest)) (below : point < first) :
    ((first, last) :: rest).any (fun range => range.1 ≤ point && point ≤ range.2) = false := by
  induction rest generalizing first last with
  | nil => simp; omega
  | cons range rest inductionHypothesis =>
      obtain ⟨nextFirst, nextLast⟩ := range
      simp only [isAscending, List.head?_cons, Option.all_some, Bool.and_eq_true,
        decide_eq_true_eq] at ascending inductionHypothesis
      have later := inductionHypothesis ascending.2 (by omega)
      rw [List.any_cons, later]
      simp; omega

/-- Looking a point up in an ascending set tells whether one of the ranges holds it. -/
theorem contains_eq_any {set : CodePoints} (ascending : set.isAscending) (point : Nat) :
    set.contains point = set.any fun range => range.1 ≤ point && point ≤ range.2 := by
  induction set with
  | nil => rfl
  | cons range rest inductionHypothesis =>
      obtain ⟨first, last⟩ := range
      by_cases below : point < first
      · rw [any_eq_false_of_lt ascending below, contains, if_pos below]
      · have restAscending : isAscending rest := by
          simp only [isAscending, Bool.and_eq_true] at ascending
          exact ascending.2
        have notBelow : first ≤ point := by omega
        simp [contains, below, notBelow, inductionHypothesis restAscending]

end CodePoints

end RootFinding.Text
