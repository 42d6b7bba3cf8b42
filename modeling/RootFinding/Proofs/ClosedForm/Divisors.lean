import RootFinding.Proofs.Outcome
import RootFinding.Search.ClosedForm

/-!
# What a closed form divides by

Each formula has few divisors: the leading coefficient, unless that is one; in a quadratic twice the
leading coefficient and its product with the first root; in a cubic `D₀`, or the three cube roots;
in a quartic the divisor `w` and those of the nested calls. `divisors` lists them for a list of
coefficients, branch by branch. That the lists leave nothing out is a theorem: two divisions that
agree on the listed divisors lead to the same result and the same events.
-/

namespace RootFinding.ClosedForm

open Coefficient Outcome Reduction

/-- A computation uses a division for no divisors but these: any other division that agrees on them
leads to the same. -/
def DividesBy {K α : Type} (divisors : [Div K] → List K) (computation : [Div K] → α) : Prop :=
  ∀ first second : Div K, (∀ z ∈ @divisors first, ∀ x, first.div x z = second.div x z) →
    @computation first = @computation second

/-- A computation depends on what dividing by zero gives. -/
def DependsOnZeroDivision (K : Type) {α : Type} [Zero K] [division : Div K]
    (computation : [Div K] → α) : Prop :=
  ∃ other : Div K, (∀ x z, z ≠ 0 → other.div x z = division.div x z) ∧
    @computation other ≠ @computation division

/-- A computation that does not divide by zero does not depend on what that gives. -/
theorem DividesBy.not_dependsOnZeroDivision {K α : Type} [Zero K] [division : Div K]
    {divisors : [Div K] → List K} {computation : [Div K] → α}
    (divides : DividesBy divisors computation) (nonzero : 0 ∉ @divisors division) :
    ¬DependsOnZeroDivision K computation := by
  rintro ⟨other, agree, differs⟩
  apply differs
  refine (divides division other fun z member x => ?_).symm
  exact (agree x z fun isZero => nonzero (isZero ▸ member)).symm

variable {K R : Type}

section Lists

variable [Zero K] [One K] [Add K] [Sub K] [Neg K] [Mul K] [BEq K] [Scalar R] [Coefficient K R]
  [Div K]

/-- Dividing by a leading coefficient that is not one. -/
def leadDivisors (lead : K) : List K := if lead == 1 then [] else [lead]

/-- The root of the discriminant of a quadratic with the sign that is chosen for it. -/
def chosenRoot (a b c : K) : K :=
  let root := sqrt (b * b - mulReal (a * c) 4.0)
  if re (conj b * root) < 0 then -root else root

omit [Zero K] [One K] [Add K] [BEq K] [Div K] in
/-- The root of the discriminant changes its sign exactly if it points away from `b`. -/
theorem chosenRoot_cases (a b c : K) :
    (chosenRoot a b c = sqrt (b * b - mulReal (a * c) 4.0) ∧
        ¬re (conj b * sqrt (b * b - mulReal (a * c) 4.0)) < 0) ∨
      (chosenRoot a b c = -sqrt (b * b - mulReal (a * c) 4.0) ∧
        re (conj b * sqrt (b * b - mulReal (a * c) 4.0)) < 0) := by
  simp only [chosenRoot]
  split
  · next away => exact Or.inr ⟨rfl, away⟩
  · next along => exact Or.inl ⟨rfl, along⟩

/-- The first root of a quadratic. -/
def firstRoot (a b c : K) : K := -(b + chosenRoot a b c) / mulReal a 2.0

/-- The divisors of a quadratic. -/
def quadraticDivisors (a b c : K) : List K := [mulReal a 2.0, a * firstRoot a b c]

/-- The divisors of a monic cubic, by its branches. -/
def MonicCubic.divisors (cubic : MonicCubic K) : List K :=
  if isNegligible cubic.discriminant then
    if isNegligible cubic.D₀ then [] else [mulReal cubic.D₀ 2.0, cubic.D₀]
  else
    let C := cbrt (mulReal cubic.largerCandidate 0.5)
    [C, omega * C, conj omega * C]

/-- The divisors of a cubic. -/
def cubicDivisors (a b c d : K) : List K :=
  leadDivisors a ++ (MonicCubic.mk (overLead a b) (overLead a c) (overLead a d)).divisors

/-- The divisors of the formula for the degree. -/
def coreDivisors (quartic : K → K → K → K → K → List K) (core : List K) : List K :=
  match core with
  | [a, _] => leadDivisors a
  | [a, b, c] => quadraticDivisors a b c
  | [a, b, c, d] => cubicDivisors a b c d
  | [a, b, c, d, e] => quartic a b c d e
  | _ => []

/-- The divisors of a nested call, for a polynomial of degree three or less. -/
def nestedDivisors (coeffs : List K) : List K :=
  coreDivisors (fun _ _ _ _ _ => []) (ofCoeffs coeffs).core

/-- The divisor that Ferrari's method comes to with these roots of the resolvent, if it divides. -/
def DepressedQuartic.ferrariDivisors (quartic : DepressedQuartic K) (resolventRoots : List K) :
    List K :=
  match last? (fun y => abs (quartic.divisorSquare y)) resolventRoots with
  | none => []
  | some y =>
      let w := sqrt (quartic.divisorSquare y)
      if w == 0 then [] else [w]

/-- The divisors of a depressed quartic, with those of its nested call. -/
def DepressedQuartic.divisors (quartic : DepressedQuartic K) (order : Bag.TableOrder K) : List K :=
  if isNegligible quartic.q then nestedDivisors [1, quartic.p, quartic.r]
  else
    nestedDivisors quartic.resolvent.coeffs ++
      match (solveCubic quartic.resolvent.coeffs).outcome with
      | .error _ => []
      | .ok resolventRoots => quartic.ferrariDivisors (resolventRoots.arranged order).toList

/-- The divisors of a monic quartic. -/
def monicQuarticDivisors (order : Bag.TableOrder K) (a b c d : K) : List K :=
  if isNegligible a && isNegligible c then nestedDivisors [1, b, d]
  else (DepressedQuartic.ofMonic a b c d).divisors order

/-- The divisors of a quartic. -/
def quarticDivisors (order : Bag.TableOrder K) (lead a b c d : K) : List K :=
  leadDivisors lead ++ monicQuarticDivisors order
    (overLead lead a) (overLead lead b) (overLead lead c) (overLead lead d)

/-- The divisors of the closed form for a polynomial, with those of its nested calls. -/
def divisors (order : Bag.TableOrder K) (coeffs : List K) : List K :=
  coreDivisors (quarticDivisors order) (ofCoeffs coeffs).core

omit [Zero K] [One K] in
/-- The formula for a quadratic in terms of its first root. -/
theorem quadratic_eq (a b c : K) :
    quadratic a b c = Bag.ofList [firstRoot a b c, c / (a * firstRoot a b c)] := rfl

end Lists

section Complete

/-- A coefficient is divided by the leading one, if by anything. -/
theorem dividesBy_overLead [One K] [BEq K] (lead c : K) :
    DividesBy (leadDivisors lead) (overLead lead c) := by
  intro first second agree
  unfold leadDivisors at agree
  unfold overLead
  split
  · rfl
  · next notOne =>
    rw [if_neg notOne] at agree
    exact agree lead List.mem_cons_self c

/-- The formula for degree one divides by the leading coefficient. -/
theorem dividesBy_linear [One K] [Neg K] [BEq K] (a b : K) :
    DividesBy (leadDivisors a) (linear a b) := by
  intro first second agree
  exact congrArg (fun quotient => (liftM (Bag.ofList [-quotient]) : Reported K (Bag K)))
    (dividesBy_overLead a b first second agree)

variable [Add K] [Sub K] [Neg K] [Mul K] [BEq K] [Scalar R] [Coefficient K R]

/-- The formula for degree two divides for its first root, and by it. -/
theorem dividesBy_quadratic (a b c : K) :
    DividesBy (quadraticDivisors a b c) (quadratic a b c) := by
  intro first second agree
  have sameFirst : @firstRoot K R _ _ _ _ _ _ first a b c =
      @firstRoot K R _ _ _ _ _ _ second a b c :=
    agree _ List.mem_cons_self _
  have sameSecond := agree _ (List.mem_cons_of_mem _ List.mem_cons_self) c
  have values : [@firstRoot K R _ _ _ _ _ _ first a b c,
        first.div c (a * @firstRoot K R _ _ _ _ _ _ first a b c)] =
      [@firstRoot K R _ _ _ _ _ _ second a b c,
        second.div c (a * @firstRoot K R _ _ _ _ _ _ second a b c)] := by
    rw [sameSecond, sameFirst]
  exact congrArg (fun values => (liftM (Bag.ofList values) : Reported K (Bag K))) values

/-- Each branch of a cubic has divisors of its own. -/
theorem MonicCubic.dividesBy_roots (cubic : MonicCubic K) :
    DividesBy cubic.divisors cubic.roots := by
  -- The instance of division is an argument here: the values are compared for two of them.
  intro first second agree
  unfold MonicCubic.divisors at agree
  unfold MonicCubic.roots
  dsimp only at agree ⊢
  split
  · next multiple =>
    split
    · rfl
    · next double =>
      rw [if_pos multiple, if_neg double] at agree
      have sameDouble : @doubleRoot K R _ _ first _ _ cubic =
          @doubleRoot K R _ _ second _ _ cubic :=
        agree _ List.mem_cons_self _
      have sameSimple : @simpleRoot K R _ _ first _ _ cubic =
          @simpleRoot K R _ _ second _ _ cubic :=
        agree _ (List.mem_cons_of_mem _ List.mem_cons_self) _
      rw [sameDouble, sameSimple]
  · next simple =>
    rw [if_neg simple] at agree
    have sameRoots : @cardanoRoots K R _ _ _ _ first _ _ cubic =
        @cardanoRoots K R _ _ _ _ second _ _ cubic := by
      apply List.map_congr_left
      intro u member
      have quotient := agree u member cubic.D₀
      exact congrArg (fun quotient => divReal (-(cubic.b + u + quotient)) (3.0 : R)) quotient
    rw [sameRoots]

variable [One K]

/-- The formula for degree three makes the cubic monic before it divides by anything else. -/
theorem dividesBy_cubic (a b c d : K) : DividesBy (cubicDivisors a b c d) (cubic a b c d) := by
  intro first second agree
  obtain ⟨agreeLead, agreeMonic⟩ := List.forall_mem_append.mp agree
  have monic := MonicCubic.dividesBy_roots _ first second agreeMonic
  have sameB := dividesBy_overLead a b first second agreeLead
  have sameC := dividesBy_overLead a c first second agreeLead
  have sameD := dividesBy_overLead a d first second agreeLead
  unfold cubic
  dsimp only at monic sameB sameC sameD ⊢
  rw [monic, sameB, sameC, sameD]

section Dispatch

variable {quarticDivisors : [Div K] → K → K → K → K → K → List K}
  {quartic : [Div K] → K → K → K → K → K → Reported K (Bag K)}

/-- The formula for a degree divides by its own divisors. -/
theorem dividesBy_solveCore
    (dividesByQuartic : ∀ a b c d e, DividesBy (quarticDivisors a b c d e) (quartic a b c d e))
    (core : List K) :
    DividesBy (coreDivisors quarticDivisors core) (solveCore quartic core) := by
  intro first second agree
  match core with
  | [] => rfl
  | [_] => rfl
  | [a, b] => exact dividesBy_linear a b first second agree
  | [a, b, c] => exact dividesBy_quadratic a b c first second agree
  | [a, b, c, d] => exact dividesBy_cubic a b c d first second agree
  | [a, b, c, d, e] => exact dividesByQuartic a b c d e first second agree
  | _ :: _ :: _ :: _ :: _ :: _ :: _ => rfl

end Dispatch

variable [Zero K]

section Reduced

variable {quarticDivisors : [Div K] → K → K → K → K → K → List K}
  {quartic : [Div K] → K → K → K → K → K → Reported K (Bag K)}

/-- The reduction divides by nothing. -/
theorem dividesBy_solveReduced
    (dividesByQuartic : ∀ a b c d e, DividesBy (quarticDivisors a b c d e) (quartic a b c d e))
    (coeffs : List K) :
    DividesBy (coreDivisors quarticDivisors (ofCoeffs coeffs).core)
      (solveReduced quartic coeffs) := by
  intro first second agree
  unfold solveReduced
  apply Traced.bind_congr
  intro reduction reduced
  obtain rfl : ofCoeffs coeffs = reduction := by simpa [reduce] using reduced
  have sameCore := dividesBy_solveCore dividesByQuartic _ first second agree
  dsimp only at sameCore
  rw [sameCore]

end Reduced

/-- A nested call divides by the divisors of the formula for its degree. -/
theorem dividesBy_solveCubic (coeffs : List K) :
    DividesBy (nestedDivisors coeffs) (solveCubic coeffs) :=
  dividesBy_solveReduced (fun _ _ _ _ _ _ _ _ => rfl) coeffs

namespace DepressedQuartic

variable (quartic : DepressedQuartic K)

omit [One K] [Mul K] in
/-- Ferrari's method divides by nothing but the divisor. -/
theorem dividesBy_ferrari (resolventRoots : List K) :
    DividesBy (quartic.ferrariDivisors resolventRoots) (quartic.ferrari resolventRoots) := by
  intro first second agree
  unfold ferrariDivisors at agree
  unfold ferrari
  dsimp only at agree ⊢
  split
  · rfl
  · next y furthest =>
    rw [furthest] at agree
    dsimp only at agree ⊢
    split
    · rfl
    · next nonzero =>
      rw [if_neg nonzero] at agree
      have quotient : @HDiv.hDiv K K K (@instHDiv K first) (mulReal quartic.q 2.0)
            (sqrt (quartic.divisorSquare y)) =
          @HDiv.hDiv K K K (@instHDiv K second) (mulReal quartic.q 2.0)
            (sqrt (quartic.divisorSquare y)) :=
        agree _ List.mem_cons_self _
      unfold splitRoots
      rw [quotient]

/-- Both paths of a depressed quartic divide by the divisors of the nested call. -/
theorem dividesBy_roots (order : Bag.TableOrder K) :
    DividesBy (quartic.divisors order) (quartic.roots order) := by
  intro first second agree
  unfold DepressedQuartic.divisors at agree
  unfold roots
  dsimp only at agree ⊢
  split
  · next noLinearTerm =>
    rw [if_pos noLinearTerm] at agree
    have sameSquares := dividesBy_solveCubic _ first second agree
    dsimp only at sameSquares
    rw [sameSquares]
  · next linearTerm =>
    rw [if_neg linearTerm] at agree
    obtain ⟨agreeNested, agreeFerrari⟩ := List.forall_mem_append.mp agree
    have sameRoots := dividesBy_solveCubic _ first second agreeNested
    dsimp only at sameRoots
    rw [← sameRoots]
    apply Traced.bind_congr
    intro resolventRoots found
    rw [found] at agreeFerrari
    exact quartic.dividesBy_ferrari _ first second agreeFerrari

end DepressedQuartic

variable (order : Bag.TableOrder K)

/-- A monic quartic divides by its own divisors, whether it is a quadratic in `x²` or not. -/
theorem dividesBy_monicQuartic (a b c d : K) :
    DividesBy (monicQuarticDivisors order a b c d) (monicQuartic order a b c d) := by
  intro first second agree
  unfold monicQuarticDivisors at agree
  unfold monicQuartic
  dsimp only at agree ⊢
  split
  · next biquadratic =>
    rw [if_pos biquadratic] at agree
    have sameSquares := dividesBy_solveCubic _ first second agree
    dsimp only at sameSquares
    rw [sameSquares]
  · next notBiquadratic =>
    rw [if_neg notBiquadratic] at agree
    exact DepressedQuartic.dividesBy_roots _ order first second agree

/-- A quartic divides by its leading coefficient and by the divisors of the monic one. -/
theorem dividesBy_quartic (lead a b c d : K) :
    DividesBy (quarticDivisors order lead a b c d) (quartic order lead a b c d) := by
  intro first second agree
  obtain ⟨agreeLead, agreeMonic⟩ := List.forall_mem_append.mp agree
  have monic := dividesBy_monicQuartic order _ _ _ _ first second agreeMonic
  have sameA := dividesBy_overLead lead a first second agreeLead
  have sameB := dividesBy_overLead lead b first second agreeLead
  have sameC := dividesBy_overLead lead c first second agreeLead
  have sameD := dividesBy_overLead lead d first second agreeLead
  unfold quartic
  dsimp only at monic sameA sameB sameC sameD ⊢
  rw [monic, sameA, sameB, sameC, sameD]

/-- The list of divisors leaves none out. -/
theorem dividesBy_solve (coeffs : List K) :
    DividesBy (divisors order coeffs) (solve order coeffs) :=
  dividesBy_solveReduced (dividesBy_quartic order) coeffs

end Complete

end RootFinding.ClosedForm
