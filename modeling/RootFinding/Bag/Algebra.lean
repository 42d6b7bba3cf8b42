import RootFinding.Bag.Walk

/-!
# Bag algebra

Operations on counts: sum, minimum, truncated and absolute difference; images and
selections, which visit each entry once; inclusion and equality. All results are built by
insertion, so that values that become equal share an entry and counts are checked.

`union` adds whole counts. The operator `+` adds the right operand one occurrence at a time, unless
it takes references. The other operators are the functions they stand for, however they take their
operands.
-/

namespace RootFinding.Bag

variable {α β : Type} [BEq α] [BEq β]

/-- Counts are added. -/
def union (a b : Bag α) : Except Fault (Bag α) := a.insertEntries b.entries

/-- The smaller of the two counts. Only the bag with fewer entries is walked. -/
def intersection (a b : Bag α) : Except Fault (Bag α) :=
  let (small, large) := if a.distinct ≤ b.distinct then (a, b) else (b, a)
  ofEntries (small.entries.map fun (value, n) => (value, min n (large.count value)))

/-- What is left of the first bag when the elements of the second are taken out. -/
def complement (a b : Bag α) : Except Fault (Bag α) :=
  ofEntries (a.entries.map fun (value, n) => (value, n - b.count value))

/-- What each bag has beyond the other. -/
def difference (a b : Bag α) : Except Fault (Bag α) := do
  (← a.complement b).union (← b.complement a)

/-- The elements that satisfy a test. -/
def filter (p : α → Bool) (bag : Bag α) : Except Fault (Bag α) :=
  ofEntries (bag.entries.filter fun entry => p entry.1)

/-- The images of the elements. An image occurs as often as all its preimages together. -/
def map (f : α → β) (bag : Bag α) : Except Fault (Bag β) :=
  ofEntries (bag.entries.map fun (value, n) => (f value, n))

/-- The elements of the images. -/
def flatMap (f : α → List β) (bag : Bag α) : Except Fault (Bag β) :=
  ofEntries (bag.entries.flatMap fun (value, n) => (f value).map fun image => (image, n))

instance : HAdd (Bag α) (Bag α) (Except Fault (Bag α)) := ⟨fun a b => Walk.foldM insert a b.drain⟩
instance : HAdd (Bag α) (List α) (Except Fault (Bag α)) := ⟨insertAll⟩
instance : HSub (Bag α) (Bag α) (Except Fault (Bag α)) := ⟨complement⟩
instance : HAnd (Bag α) (Bag α) (Except Fault (Bag α)) := ⟨intersection⟩
instance : HXor (Bag α) (Bag α) (Except Fault (Bag α)) := ⟨difference⟩

/-- A sum of bags is the left one with the elements of the right one inserted. -/
theorem add_eq (a b : Bag α) : a + b = a.insertAll b.intoList := Walk.foldM_eq insert a b.drain

/-- How an operator takes its operands: it uses both up, it only looks at them, or it uses the right
one up and leaves the result in place of the left one. -/
inductive Operands where
  | owned
  | borrowed
  | inPlace

/-- The operators on two bags. -/
inductive Operator where
  | add
  | sub
  | and
  | xor

/-- Apply an operator. A right operand that is used up is added one occurrence at a time, and one
that is only looked at entry by entry. -/
def Operator.apply : Operator → Operands → Bag α → Bag α → Except Fault (Bag α)
  | add, .borrowed, a, b => a.union b
  | add, _, a, b => a + b
  | sub, _, a, b => a - b
  | and, _, a, b => a &&& b
  | xor, _, a, b => a ^^^ b

/-- The same entries, in whatever order. -/
instance : BEq (Bag α) where
  beq a b := a.distinct == b.distinct &&
    a.entries.all fun (value, n) => b.get? value == some n

/-- Every element of the first bag occurs in the second at least as often. -/
def isSubset (a b : Bag α) : Bool := a.entries.all fun (value, n) => n ≤ b.count value

/-- Included and not equal. -/
def isStrictSubset (a b : Bag α) : Bool := a.isSubset b && a != b

/-- The converse of inclusion. -/
def isSuperset (a b : Bag α) : Bool := b.isSubset a

/-- The converse of strict inclusion. -/
def isStrictSuperset (a b : Bag α) : Bool := b.isStrictSubset a

end RootFinding.Bag
