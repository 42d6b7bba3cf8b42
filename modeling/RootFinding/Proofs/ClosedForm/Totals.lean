import RootFinding.Proofs.Bag.Insertion
import RootFinding.Proofs.Constants
import RootFinding.Proofs.Reduction
import RootFinding.Search.ClosedForm

/-!
# How many roots a closed form yields

Every formula yields as many roots as the degree it is for, whatever the arithmetic makes of them:
roots that coincide share an entry and are counted in it, and a root that is not a number gets an
entry of its own. A quartic either has four roots or ends at a vanishing divisor. With the roots
at the origin the total is the degree after the negligible front, at the top level and in every
nested call.
-/

namespace RootFinding.ClosedForm

open Bag Coefficient Outcome Reduction

variable {K R : Type}

/-- A computation ends in a bag with a property. -/
def EndsIn (computation : Reported K (Bag K)) (property : Bag K → Prop) : Prop :=
  ∃ bag, computation.outcome = .ok bag ∧ property bag

/-- Reporting events changes nothing about the result. -/
theorem EndsIn.report {computation : Reported K (Bag K)} {property : Bag K → Prop}
    (ends : EndsIn computation property) (events : List (Event K)) :
    EndsIn (do Traced.report events; computation) property := by
  obtain ⟨bag, outcome, holds⟩ := ends
  exact ⟨bag, by simpa using outcome, holds⟩

/-- A computation ends in a bag of `n` elements. -/
def Yields (computation : Reported K (Bag K)) (n : Nat) : Prop :=
  EndsIn computation fun bag => bag.total = n

/-- What a computation ends in has as many elements as it yields. -/
theorem Yields.total {computation : Reported K (Bag K)} {n : Nat} (yields : Yields computation n)
    {bag : Bag K} (finished : computation.outcome = .ok bag) : bag.total = n := by
  obtain ⟨found, outcome, total⟩ := yields
  rw [finished] at outcome
  obtain rfl := Except.ok.inj outcome
  exact total

/-- A counter can hold the number of roots of a closed form. -/
theorem le_countLimit {n : Nat} (small : n ≤ 4) : n ≤ countLimit := by
  have limit : 4 ≤ countLimit := by decide
  omega

/-- A short list yields its length. -/
theorem yields_ofList [BEq K] (values : List K) (short : values.length ≤ countLimit) :
    Yields (Bag.ofList values) values.length := by
  obtain ⟨bag, built⟩ := exists_ofList short
  exact ⟨bag, built, total_ofList built⟩

section Monic

variable [Zero K] [One K] [BEq K] [Coefficient K R] [StandardConstants K]

/-- A list that starts with one keeps its degree. -/
theorem dropWhile_one_cons (rest : List K) :
    (1 :: rest : List K).dropWhile isNegligible = 1 :: rest :=
  List.dropWhile_cons_of_neg (by simp [StandardConstants.isNegligible_one])

/-- A list that starts with one has a coefficient that is not negligible. -/
theorem substantial_one_cons (rest : List K) : Substantial (1 :: rest) :=
  ⟨1, List.mem_cons_self, StandardConstants.isNegligible_one⟩

/-- Reducing a monic polynomial leaves a monic one. -/
theorem exists_core_one_cons (rest : List K) : ∃ tail, (ofCoeffs (1 :: rest)).core = 1 :: tail := by
  have substantial := substantial_one_cons rest
  obtain ⟨lead, tail, shape, _⟩ := (tight_core substantial).first
  obtain ⟨back, parts⟩ :=
    List.rdropWhile_prefix isNegligible (l := (1 :: rest).dropWhile isNegligible)
  rw [← core_ofCoeffs substantial, shape, dropWhile_one_cons, List.cons_append,
    List.cons.injEq] at parts
  exact ⟨tail, by rw [shape, parts.1]⟩

end Monic

/-- A linear polynomial has one root. -/
theorem yields_linear [One K] [Neg K] [Div K] [BEq K] (a b : K) : Yields (linear a b) 1 :=
  yields_ofList [-overLead a b] (le_countLimit (by simp))

variable [Add K] [Sub K] [Neg K] [Mul K] [Div K] [BEq K] [Scalar R] [Coefficient K R]

/-- A quadratic has two roots. -/
theorem yields_quadratic (a b c : K) : Yields (quadratic a b c) 2 :=
  yields_ofList [_, _] (le_countLimit (by simp))

/-- Each branch of a cubic yields three roots. -/
theorem MonicCubic.yields_roots (cubic : MonicCubic K) : Yields cubic.roots 3 := by
  unfold MonicCubic.roots
  split
  · split
    · exact (yields_ofList [_, _, _] (le_countLimit (by simp))).report _
    · exact (yields_ofList [_, _, _] (le_countLimit (by simp))).report _
  · exact yields_ofList cubic.cardanoRoots (le_countLimit (by simp [MonicCubic.cardanoRoots]))

variable [One K]

/-- A cubic has three roots. -/
theorem yields_cubic (a b c d : K) : Yields (cubic a b c d) 3 :=
  MonicCubic.yields_roots _

section Dispatch

variable {quartic : K → K → K → K → K → Reported K (Bag K)}

/-- Up to degree three the formula for a degree yields as many roots. -/
theorem yields_solveCore {core : List K} (nonempty : core ≠ []) (short : core.length ≤ 4) :
    Yields (solveCore quartic core) (core.length - 1) := by
  match core with
  | [] => exact absurd rfl nonempty
  | [_] => exact ⟨∅, rfl, rfl⟩
  | [a, b] => exact yields_linear a b
  | [a, b, c] => exact yields_quadratic a b c
  | [a, b, c, d] => exact yields_cubic a b c d
  | _ :: _ :: _ :: _ :: _ :: rest =>
      simp only [List.length_cons] at short
      omega

/-- Where a quartic has four roots if it has any, the same holds of every degree. -/
theorem total_solveCore
    (quarticTotal : ∀ a b c d e bag, (quartic a b c d e).outcome = .ok bag → bag.total = 4)
    {core : List K} {bag : Bag K} (finished : (solveCore quartic core).outcome = .ok bag) :
    bag.total = core.length - 1 := by
  match core with
  | [] => cases finished
  | [_] => exact (yields_solveCore (by simp) (by simp)).total finished
  | [_, _] => exact (yields_solveCore (by simp) (by simp)).total finished
  | [_, _, _] => exact (yields_solveCore (by simp) (by simp)).total finished
  | [_, _, _, _] => exact (yields_solveCore (by simp) (by simp)).total finished
  | [a, b, c, d, e] => exact quarticTotal a b c d e bag finished
  | _ :: _ :: _ :: _ :: _ :: _ :: _ => cases finished

/-- Up to degree four the only formula that can fail is the quartic's. -/
theorem solveCore_eq_error {core : List K} (nonempty : core ≠ []) (short : core.length ≤ 5)
    {cause : Fault} (failed : (solveCore quartic core).outcome = .error cause) :
    ∃ lead a b c d, core = [lead, a, b, c, d] ∧
      (quartic lead a b c d).outcome = .error cause := by
  match core with
  | [] => exact absurd rfl nonempty
  | [_] => cases failed
  | [a, b] =>
      obtain ⟨bag, finished, _⟩ := yields_linear a b
      exact absurd (finished.symm.trans failed) (by simp)
  | [a, b, c] =>
      obtain ⟨bag, finished, _⟩ := yields_quadratic a b c
      exact absurd (finished.symm.trans failed) (by simp)
  | [a, b, c, d] =>
      obtain ⟨bag, finished, _⟩ := yields_cubic a b c d
      exact absurd (finished.symm.trans failed) (by simp)
  | [lead, a, b, c, d] => exact ⟨lead, a, b, c, d, rfl, failed⟩
  | _ :: _ :: _ :: _ :: _ :: _ :: rest =>
      simp only [List.length_cons] at short
      omega

end Dispatch

variable [Zero K]

section Reduced

variable {quartic : K → K → K → K → K → Reported K (Bag K)}

/-- The outcome of a closed form is that of the formula with the roots at the origin added. -/
theorem outcome_solveReduced (coeffs : List K) :
    (solveReduced quartic coeffs).outcome =
      (solveCore quartic (ofCoeffs coeffs).core).outcome >>= fun roots =>
        roots.insertMany 0 (ofCoeffs coeffs).zeros := by
  simp [solveReduced, reduce]

/-- Negligible coefficients behind a core are roots at the origin. -/
theorem outcome_solveReduced_append {core : List K} (tight : Tight core) (back : List K)
    (negligible : ∀ c ∈ back, isNegligible c = true) :
    (solveReduced quartic (core ++ back)).outcome =
      (solveCore quartic core).outcome >>= fun roots => roots.insertMany 0 back.length := by
  obtain ⟨sameCore, zeros⟩ := ofCoeffs_split [] back tight (by simp) negligible
  rw [List.nil_append] at sameCore zeros
  rw [outcome_solveReduced, sameCore, zeros]

/-- On a core the dispatch finds nothing to reduce. -/
theorem outcome_solveReduced_of_tight {core : List K} (tight : Tight core) :
    (solveReduced quartic core).outcome = (solveCore quartic core).outcome := by
  rw [← List.append_nil core, outcome_solveReduced_append tight [] (by simp), List.append_nil]
  cases (solveCore quartic core).outcome with
  | error cause => rfl
  | ok roots => rfl

/-- On a core the dispatch has nothing of its own to report. -/
theorem events_solveReduced_of_tight {core : List K} (tight : Tight core) :
    (solveReduced quartic core).events = (solveCore quartic core).events := by
  have nothing : ofCoeffs core = ⟨[], core, 0⟩ := by
    have again := ofCoeffs_core tight.substantial
    rwa [(ofCoeffs_of_tight tight).1] at again
  have reduced : (reduce core : Traced Fault (Event K) (Reduction K)) =
      ⟨[], .ok ⟨[], core, 0⟩⟩ := by
    rw [reduce, nothing]
    rfl
  rw [solveReduced, reduced, Traced.events_bind_of_ok rfl, List.nil_append]
  cases outcome : (solveCore quartic core).outcome with
  | error cause => exact Traced.events_bind_of_error outcome _
  | ok roots => rw [Traced.events_bind_of_ok outcome, Traced.events_lift, List.append_nil]

/-- A closed form has as many roots as the degree after the negligible front. -/
theorem total_solveReduced
    (quarticTotal : ∀ a b c d e bag, (quartic a b c d e).outcome = .ok bag → bag.total = 4)
    {coeffs : List K} (substantial : Substantial coeffs) {bag : Bag K}
    (finished : (solveReduced quartic coeffs).outcome = .ok bag) :
    bag.total = (coeffs.dropWhile isNegligible).length - 1 := by
  rw [outcome_solveReduced, bind_eq_ok] at finished
  obtain ⟨roots, found, inserted⟩ := finished
  have coreNonempty := List.length_pos_of_ne_nil (tight_core substantial).ne_nil
  have parts := length_core_add_zeros substantial
  rw [total_insertMany inserted, total_solveCore quarticTotal found]
  omega

/-- A closed form for at most four coefficients has an answer. -/
theorem yields_solveReduced {coeffs : List K} (substantial : Substantial coeffs)
    (short : coeffs.length ≤ 4) :
    Yields (solveReduced quartic coeffs) ((coeffs.dropWhile isNegligible).length - 1) := by
  have coreNonempty := (tight_core substantial).ne_nil
  have corePositive := List.length_pos_of_ne_nil coreNonempty
  have parts := length_core_add_zeros substantial
  have trimmed := (List.dropWhile_suffix isNegligible (l := coeffs)).length_le
  obtain ⟨roots, found, rootsTotal⟩ := yields_solveCore (K := K) coreNonempty (by omega)
  obtain ⟨bag, inserted⟩ := exists_insertMany roots 0 (n := (ofCoeffs coeffs).zeros)
    (le_countLimit (by omega))
  have total : bag.total = (coeffs.dropWhile isNegligible).length - 1 := by
    rw [total_insertMany inserted, rootsTotal]
    omega
  exact ⟨bag, by rw [outcome_solveReduced, found, ok_bind, inserted], total⟩

end Reduced

section Quartic

variable [StandardConstants K]

/-- A monic polynomial with at most three further coefficients has as many roots as these. -/
theorem yields_solveCubic {rest : List K} (short : rest.length ≤ 3) :
    Yields (solveCubic (1 :: rest)) rest.length := by
  have yields : Yields (solveCubic (1 :: rest))
      (((1 :: rest).dropWhile isNegligible).length - 1) :=
    yields_solveReduced (substantial_one_cons rest) (by rw [List.length_cons]; omega)
  rwa [dropWhile_one_cons, List.length_cons, Nat.add_sub_cancel] at yields

/-- The resolvent always has three roots. -/
theorem DepressedQuartic.yields_resolvent (quartic : DepressedQuartic K) :
    Yields (solveCubic quartic.resolvent.coeffs) 3 :=
  yields_solveCubic (by simp)

variable (order : TableOrder K)

/-- Two square roots of each of two squares are four, in whatever order they are walked. -/
theorem yields_flatMap_squares {f : K → List K} (pairs : ∀ square, (f square).length = 2)
    (b d : K) : Yields (do ((← solveCubic [1, b, d]).arranged order).flatMap f) 4 := by
  have two : Yields (solveCubic [1, b, d]) 2 := yields_solveCubic (by simp)
  obtain ⟨squares, found, total⟩ := two
  have walked : (squares.arranged order).total = 2 := by rw [total_arranged, total]
  obtain ⟨bag, built⟩ := exists_flatMap pairs (le_countLimit (by rw [walked]))
  have four : bag.total = 4 := by
    rw [total_flatMap pairs built, walked]
  refine ⟨bag, ?_, four⟩
  rw [Traced.outcome_bind, found]
  exact built

/-- A measure has a last maximum on every list but the empty one. -/
theorem exists_last? {α : Type} (measure : α → R) {values : List α} (nonempty : values ≠ []) :
    ∃ value, last? measure values = some value := by
  obtain ⟨first, rest, rfl⟩ := List.exists_cons_of_ne_nil nonempty
  exact ⟨_, rfl⟩

/-- The last maximum of a measure on a list is on the list. -/
theorem mem_of_last? {α : Type} {measure : α → R} {values : List α} {value : α}
    (maximal : last? measure values = some value) : value ∈ values := by
  cases values with
  | nil => cases maximal
  | cons first rest =>
      rw [last?, Option.some.injEq] at maximal
      rw [← maximal]
      clear maximal
      induction rest using List.reverseRecOn with
      | nil => exact List.mem_cons_self
      | append_singleton rest final inductionHypothesis =>
          rw [List.foldl_append, List.foldl_cons, List.foldl_nil]
          split
          · rcases List.mem_cons.mp inductionHypothesis with isFirst | inRest
            · rw [isFirst]
              exact List.mem_cons_self
            · exact List.mem_cons_of_mem first (List.mem_append_left _ inRest)
          · simp

omit [One K] [Mul K] [StandardConstants K] in
/-- From the roots of a resolvent there are four roots, or the divisor vanishes. -/
theorem DepressedQuartic.ferrari_outcome (quartic : DepressedQuartic K) {resolventRoots : List K}
    (nonempty : resolventRoots ≠ []) :
    Yields (quartic.ferrari resolventRoots) 4 ∨
      (quartic.ferrari resolventRoots).outcome = .error .vanishingDivisor := by
  obtain ⟨y, furthest⟩ := exists_last? (fun y => abs (quartic.divisorSquare y)) nonempty
  unfold DepressedQuartic.ferrari
  simp only [furthest]
  split
  · exact Or.inr rfl
  · exact Or.inl (yields_ofList _ (le_countLimit (by simp [DepressedQuartic.splitRoots])))

/-- A depressed quartic has four roots, or its divisor vanishes. -/
theorem DepressedQuartic.roots_outcome (quartic : DepressedQuartic K) :
    Yields (quartic.roots order) 4 ∨
      (quartic.roots order).outcome = .error .vanishingDivisor := by
  unfold DepressedQuartic.roots
  split
  · exact Or.inl ((yields_flatMap_squares order (fun _ => rfl) _ _).report _)
  · obtain ⟨resolventRoots, found, total⟩ := quartic.yields_resolvent
    have nonempty : (resolventRoots.arranged order).toList ≠ [] :=
      List.ne_nil_of_length_pos (by rw [length_toList, total_arranged, total]; omega)
    have outcome : (do
          quartic.ferrari ((← solveCubic quartic.resolvent.coeffs).arranged order).toList).outcome =
        (quartic.ferrari (resolventRoots.arranged order).toList).outcome := by
      rw [Traced.outcome_bind, found, ok_bind]
    rcases quartic.ferrari_outcome nonempty with ⟨bag, finished, four⟩ | vanished
    · exact Or.inl ⟨bag, outcome.trans finished, four⟩
    · exact Or.inr (outcome.trans vanished)

/-- A quartic has four roots, or its divisor vanishes. -/
theorem quartic_outcome (lead a b c d : K) :
    Yields (quartic order lead a b c d) 4 ∨
      (quartic order lead a b c d).outcome = .error .vanishingDivisor := by
  unfold quartic monicQuartic
  split
  · exact Or.inl ((yields_flatMap_squares order (fun _ => rfl) _ _).report _)
  · exact DepressedQuartic.roots_outcome order _

/-- A quartic that has roots has four. -/
theorem total_quartic {order : TableOrder K} {lead a b c d : K} {bag : Bag K}
    (finished : (quartic order lead a b c d).outcome = .ok bag) : bag.total = 4 := by
  rcases quartic_outcome order lead a b c d with yields | vanished
  · exact yields.total finished
  · rw [finished] at vanished
    cases vanished

end Quartic

end RootFinding.ClosedForm
