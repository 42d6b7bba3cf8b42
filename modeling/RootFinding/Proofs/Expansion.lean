import RootFinding.Proofs.Horner

/-!
# Expanding a product of linear factors

A coefficient of a product with `x - r` is the coefficient there less `r` times the one to its left,
so the factors of a product can be multiplied in any order, and Horner's rule takes the product
apart again. The coefficients can be updated in place if that goes from the last one to the first:
what an update reads has not been written yet.
-/

namespace RootFinding.Poly

/-- A product of linear factors has the leading coefficient one. -/
theorem exists_coeffs_ofRoots {K : Type} [Zero K] [One K] [Sub K] [Mul K] (roots : List K) :
    ∃ rest, (ofRoots roots).coeffs = 1 :: rest := by
  have lead (coeffs : List K) :
      ∃ rest, roots.foldl (fun coeffs r => mulLinear r coeffs) (1 :: coeffs) = 1 :: rest := by
    induction roots generalizing coeffs with
    | nil => exact ⟨coeffs, rfl⟩
    | cons r roots inductionHypothesis => exact inductionHypothesis _
  exact lead []

variable {K : Type} [CommRing K]

section Coefficients

/-- The coefficient at an index, zero behind the last one. -/
def entry (coeffs : List K) (i : Nat) : K := coeffs.getD i 0

/-- An empty list has zero at every place. -/
@[simp] theorem entry_nil (i : Nat) : entry ([] : List K) i = 0 := rfl

/-- At the first place is the first coefficient. -/
@[simp] theorem entry_cons_zero (c : K) (coeffs : List K) : entry (c :: coeffs) 0 = c := rfl

/-- At a later place is what the other coefficients have one place before. -/
@[simp] theorem entry_cons_succ (c : K) (coeffs : List K) (i : Nat) :
    entry (c :: coeffs) (i + 1) = entry coeffs i := rfl

/-- A last coefficient of zero is no other than what stands behind the list. -/
@[simp] theorem entry_append_zero (coeffs : List K) (i : Nat) :
    entry (coeffs ++ [0]) i = entry coeffs i := by
  induction coeffs generalizing i with
  | nil => cases i <;> rfl
  | cons c coeffs inductionHypothesis =>
      cases i with
      | zero => rfl
      | succ i => exact inductionHypothesis i

/-- Lists of one length are equal if their coefficients are. -/
theorem eq_of_entry {coeffs others : List K} (length : coeffs.length = others.length)
    (same : ∀ i, entry coeffs i = entry others i) : coeffs = others := by
  apply List.ext_getElem length
  intro i inCoeffs inOthers
  rw [← List.getD_eq_getElem coeffs 0 inCoeffs, ← List.getD_eq_getElem others 0 inOthers]
  exact same i

/-- Coefficients are subtracted place by place. -/
theorem entry_zipWith_sub (r : K) {coeffs others : List K}
    (length : coeffs.length = others.length) (i : Nat) :
    entry (coeffs.zipWith (fun c other => c - r * other) others) i =
      entry coeffs i - r * entry others i := by
  induction coeffs generalizing others i with
  | nil =>
      obtain rfl := List.length_eq_zero_iff.mp length.symm
      simp
  | cons c coeffs inductionHypothesis =>
      cases others with
      | nil => cases length
      | cons other others =>
          cases i with
          | zero => rfl
          | succ i => exact inductionHypothesis (Nat.succ.inj length) i

/-- A linear factor takes `r` times its left neighbour off each coefficient. -/
theorem mulLinear_eq_zipWith (r : K) {coeffs : List K} (nonempty : coeffs ≠ []) :
    mulLinear r coeffs =
      (coeffs ++ [0]).zipWith (fun c left => c - r * left) (0 :: coeffs) := by
  cases coeffs with
  | nil => exact absurd rfl nonempty
  | cons lead rest => simp [mulLinear]

/-- At each place a linear factor takes off `r` times what is one place before. -/
theorem entry_mulLinear (r : K) {coeffs : List K} (nonempty : coeffs ≠ []) (i : Nat) :
    entry (mulLinear r coeffs) i = entry coeffs i - r * entry (0 :: coeffs) i := by
  rw [mulLinear_eq_zipWith r nonempty, entry_zipWith_sub r (by simp), entry_append_zero]

/-- A product with a linear factor has coefficients. -/
theorem mulLinear_ne_nil (r : K) {coeffs : List K} (nonempty : coeffs ≠ []) :
    mulLinear r coeffs ≠ [] :=
  List.ne_nil_of_length_pos (by rw [length_mulLinear r nonempty]; omega)

/-- Linear factors can be multiplied in either order. -/
theorem mulLinear_comm (r s : K) (coeffs : List K) :
    mulLinear r (mulLinear s coeffs) = mulLinear s (mulLinear r coeffs) := by
  by_cases empty : coeffs = []
  · rw [empty]
    rfl
  · have afterR := mulLinear_ne_nil r empty
    have afterS := mulLinear_ne_nil s empty
    apply eq_of_entry
    · rw [length_mulLinear r afterS, length_mulLinear s afterR, length_mulLinear r empty,
        length_mulLinear s empty]
    · intro i
      rw [entry_mulLinear r afterS, entry_mulLinear s afterR]
      cases i with
      | zero =>
          simp only [entry_mulLinear r empty, entry_mulLinear s empty, entry_cons_zero]
          ring
      | succ i =>
          simp only [entry_mulLinear r empty, entry_mulLinear s empty, entry_cons_succ]
          ring

/-- The product does not depend on the order of the roots. -/
theorem ofRoots_perm {roots others : List K} (rearranged : others.Perm roots) :
    ofRoots others = ofRoots roots := by
  have sameCoeffs : (ofRoots others).coeffs = (ofRoots roots).coeffs :=
    rearranged.foldl_eq' (fun r _ s _ coeffs => mulLinear_comm s r coeffs) [1]
  rw [Poly.mk.injEq]
  exact sameCoeffs

end Coefficients

section Values

/-- Horner's rule is linear in the coefficients. -/
theorem horner_zipWith_sub (r x : K) {coeffs others : List K}
    (length : coeffs.length = others.length) :
    horner (coeffs.zipWith (fun c other => c - r * other) others) x =
      horner coeffs x - r * horner others x := by
  induction coeffs generalizing others with
  | nil =>
      obtain rfl := List.length_eq_zero_iff.mp length.symm
      simp [horner]
  | cons c coeffs inductionHypothesis =>
      cases others with
      | nil => cases length
      | cons other others =>
          have sameLength : coeffs.length = others.length := Nat.succ.inj length
          rw [List.zipWith_cons_cons, horner_cons, horner_cons, horner_cons,
            inductionHypothesis sameLength, List.length_zipWith, sameLength, Nat.min_self]
          ring

/-- A linear factor is a factor of the value. -/
theorem horner_mulLinear (r : K) (coeffs : List K) (x : K) :
    horner (mulLinear r coeffs) x = (x - r) * horner coeffs x := by
  by_cases nonempty : coeffs = []
  · subst nonempty
    simp [mulLinear, horner]
  · rw [mulLinear_eq_zipWith r nonempty, horner_zipWith_sub r x (by simp), horner_append_singleton,
      horner_cons]
    ring

/-- The values of a product are the products of the values. -/
theorem horner_foldl_mulLinear (roots coeffs : List K) (x : K) :
    horner (roots.foldl (fun coeffs r => mulLinear r coeffs) coeffs) x =
      (roots.map fun r => x - r).prod * horner coeffs x := by
  induction roots generalizing coeffs with
  | nil => simp
  | cons r roots inductionHypothesis =>
      rw [List.foldl_cons, inductionHypothesis, horner_mulLinear, List.map_cons, List.prod_cons]
      ring

/-- A polynomial that is built from roots has the product of the differences to them as its value.
-/
theorem eval_ofRoots (roots : List K) (x : K) :
    (ofRoots roots).eval x = (roots.map fun r => x - r).prod := by
  have one : horner [(1 : K)] x = 1 := by simp [horner]
  have value := horner_foldl_mulLinear roots [1] x
  rwa [one, mul_one] at value

/-- A factor of all coefficients is a factor of the value. -/
theorem eval_scale (p : Poly K) (factor x : K) : (p.scale factor).eval x = factor * p.eval x := by
  change horner (p.coeffs.map (· * factor)) x = factor * horner p.coeffs x
  induction p.coeffs with
  | nil => simp [horner]
  | cons c coeffs inductionHypothesis =>
      rw [List.map_cons, horner_cons, horner_cons, inductionHypothesis, List.length_map]
      ring

end Values

section Homomorphisms

/-- A homomorphism goes through the expansion coefficient by coefficient. -/
theorem map_mulLinear {L : Type} [CommRing L] (f : K →+* L) (r : K) (coeffs : List K) :
    (mulLinear r coeffs).map f = mulLinear (f r) (coeffs.map f) := by
  cases coeffs with
  | nil => rfl
  | cons lead rest =>
      have padded : (rest ++ [0]).map f = rest.map f ++ [0] := by
        rw [List.map_append, List.map_singleton, map_zero]
      simp only [mulLinear, List.map_cons, List.map_zipWith, map_sub, map_mul]
      rw [← padded, ← List.map_cons, List.zipWith_map]

/-- Building a polynomial from roots commutes with homomorphisms. -/
theorem map_coeffs_ofRoots {L : Type} [CommRing L] (f : K →+* L) (roots : List K) :
    (ofRoots roots).coeffs.map f = (ofRoots (roots.map f)).coeffs := by
  have expansion (coeffs : List K) :
      (roots.foldl (fun coeffs r => mulLinear r coeffs) coeffs).map f =
        (roots.map f).foldl (fun coeffs r => mulLinear r coeffs) (coeffs.map f) := by
    induction roots generalizing coeffs with
    | nil => rfl
    | cons r roots inductionHypothesis =>
        rw [List.foldl_cons, inductionHypothesis, map_mulLinear, List.map_cons, List.foldl_cons]
  have whole := expansion [1]
  rwa [List.map_singleton, map_one] at whole

end Homomorphisms

section InPlace

/-- Take `r` times its left neighbour off each coefficient in place, from an index down to the
second coefficient. -/
def subtractDown (r : K) : Nat → List K → List K
  | 0, coeffs => coeffs
  | i + 1, coeffs =>
      subtractDown r i (coeffs.set (i + 1) (entry coeffs (i + 1) - r * entry coeffs i))

/-- Updates in place keep the number of coefficients. -/
theorem length_subtractDown (r : K) (last : Nat) (coeffs : List K) :
    (subtractDown r last coeffs).length = coeffs.length := by
  induction last generalizing coeffs with
  | zero => rfl
  | succ last inductionHypothesis => rw [subtractDown, inductionHypothesis, List.length_set]

/-- A coefficient that is set is at its place, and the others are as they were. -/
theorem entry_set {coeffs : List K} {place : Nat} (inRange : place < coeffs.length) (c : K)
    (i : Nat) : entry (coeffs.set place c) i = if i = place then c else entry coeffs i := by
  rw [entry, entry, List.getD_eq_getElem?_getD, List.getElem?_set, List.getD_eq_getElem?_getD]
  by_cases here : i = place
  · subst here
    rw [if_pos rfl, if_pos inRange, if_pos rfl, Option.getD_some]
  · rw [if_neg (Ne.symm here), if_neg here]

/-- Going down, each update reads what was there at first. -/
theorem entry_subtractDown (r : K) {last : Nat} {coeffs : List K} (inRange : last < coeffs.length)
    (i : Nat) : entry (subtractDown r last coeffs) i =
      if i ≤ last then entry coeffs i - r * entry (0 :: coeffs) i else entry coeffs i := by
  induction last generalizing coeffs with
  | zero =>
      cases i with
      | zero => simp [subtractDown]
      | succ i => simp [subtractDown]
  | succ last inductionHypothesis =>
      have unwritten {j : Nat} (before : j ≤ last) : entry (coeffs.set (last + 1)
          (entry coeffs (last + 1) - r * entry coeffs last)) j = entry coeffs j := by
        rw [entry_set inRange, if_neg (by omega)]
      rw [subtractDown, inductionHypothesis (by rw [List.length_set]; omega)]
      rcases Nat.lt_trichotomy i (last + 1) with before | rfl | behind
      · have below : i ≤ last := Nat.le_of_lt_succ before
        rw [if_pos below, if_pos (by omega), unwritten below]
        cases i with
        | zero => rfl
        | succ i => rw [entry_cons_succ, entry_cons_succ, unwritten (by omega)]
      · rw [if_neg (by omega), if_pos le_rfl, entry_set inRange, if_pos rfl, entry_cons_succ]
      · rw [if_neg (by omega), if_neg (by omega), entry_set inRange, if_neg (by omega)]

/-- Updating in place multiplies by a linear factor. -/
theorem mulLinear_eq_subtractDown (r : K) {coeffs : List K} (nonempty : coeffs ≠ []) :
    mulLinear r coeffs = subtractDown r coeffs.length (coeffs ++ [0]) := by
  have inRange : coeffs.length < (coeffs ++ [(0 : K)]).length := by simp
  apply eq_of_entry
  · rw [length_mulLinear r nonempty, length_subtractDown, List.length_append,
      List.length_singleton]
  · intro i
    rw [entry_mulLinear r nonempty, entry_subtractDown r inRange, entry_append_zero,
      ← List.cons_append, entry_append_zero]
    split
    · rfl
    · next behind =>
      have nothing : entry (0 :: coeffs) i = 0 :=
        List.getD_eq_default _ 0 (by rw [List.length_cons]; omega)
      rw [nothing, mul_zero, sub_zero]

/-- The coefficients are what updates in place leave, root by root. -/
theorem coeffs_ofRoots_eq_subtractDown (roots : List K) :
    (ofRoots roots).coeffs =
      roots.foldl (fun coeffs r => subtractDown r coeffs.length (coeffs ++ [0])) [1] := by
  have inPlace {coeffs : List K} (nonempty : coeffs ≠ []) :
      roots.foldl (fun coeffs r => mulLinear r coeffs) coeffs =
        roots.foldl (fun coeffs r => subtractDown r coeffs.length (coeffs ++ [0])) coeffs := by
    induction roots generalizing coeffs with
    | nil => rfl
    | cons r roots inductionHypothesis =>
        rw [List.foldl_cons, List.foldl_cons, ← mulLinear_eq_subtractDown r nonempty,
          inductionHypothesis (mulLinear_ne_nil r nonempty)]
  exact inPlace (List.cons_ne_nil 1 [])

end InPlace

/-- A polynomial that is built from roots has one coefficient more than roots, the first of them
one, and they are those that updates in place from the last one down leave. Scaled by a factor it
has as its values the factor times the product of `x - r` over the roots, where a value is the sum
of the coefficients times the powers. The order of the roots does not matter. -/
theorem ofRoots_expands (roots : List K) :
    (ofRoots roots).coeffs.length = roots.length + 1 ∧
    (ofRoots roots).coeffs.head? = some 1 ∧
    (ofRoots roots).coeffs =
      roots.foldl (fun coeffs r => subtractDown r coeffs.length (coeffs ++ [0])) [1] ∧
    (∀ factor x,
      ((ofRoots roots).scale factor).eval x = factor * (roots.map fun r => x - r).prod) ∧
    (∀ (p : Poly K) (x : K), p.eval x =
      ∑ i : Fin p.coeffs.length, p.coeffs[i] * x ^ (p.coeffs.length - 1 - i)) ∧
    ∀ rearranged : List K, rearranged.Perm roots → ofRoots rearranged = ofRoots roots := by
  obtain ⟨rest, shape⟩ := exists_coeffs_ofRoots roots
  refine ⟨length_coeffs_ofRoots roots, by rw [shape, List.head?_cons],
    coeffs_ofRoots_eq_subtractDown roots, fun factor x => ?_,
    fun p => horner_eq_sum p.coeffs, fun rearranged => ofRoots_perm⟩
  rw [eval_scale, eval_ofRoots]

/-- The cubic with the roots `1`, `2` and `3`, in another order and scaled by `5`, at `4`. -/
theorem ofRoots_expands_integers :
    ofRoots [3, 1, 2] = ofRoots [1, 2, (3 : ℤ)] ∧
      ((ofRoots [1, 2, (3 : ℤ)]).scale 5).eval 4 = 30 := by
  obtain ⟨_, _, _, value, _, order⟩ := ofRoots_expands [1, 2, (3 : ℤ)]
  exact ⟨order _ (by decide), value 5 4⟩

end RootFinding.Poly
