import RootFinding.Bag.Walk

/-!
# Matching two bags

`pairsUnder` pairs the elements of one bag with those of another under a relation. It is
greedy: each element takes an equal partner if one is left, and otherwise the first that the
relation allows.
-/

namespace RootFinding.Bag

variable {α : Type} [BEq α]

/-- The partner that an element takes from what is left. -/
def partner? (related : α → α → Bool) (remaining : Bag α) (value : α) : Option α :=
  if remaining.contains value then some value
  else (remaining.entries.find? fun entry => related value entry.1).map Prod.fst

/-- What is left when an element has taken its partner, if it found one. -/
def pairOff (related : α → α → Bool) (remaining : Bag α) (value : α) : Option (Bag α) :=
  (partner? related remaining value).map fun partner => (remaining.remove partner).1

/-- Whether the elements of two bags of one size are paired by the greedy matching. The first
element without a partner decides. -/
def pairsUnder (related : α → α → Bool) (a b : Bag α) : Except Fault Bool := do
  let sizeA ← a.size
  let sizeB ← b.size
  return sizeA == sizeB && (Walk.foldM (pairOff related) b a.cursor).any isEmpty

/-- Bags are paired if they have one size and the elements of the first, in turn, leave nothing of
the second. -/
theorem pairsUnder_eq (related : α → α → Bool) (a b : Bag α) :
    a.pairsUnder related b = do
      let sizeA ← a.size
      let sizeB ← b.size
      return sizeA == sizeB && (a.toList.foldlM (pairOff related) b).any isEmpty := by
  rw [pairsUnder, Walk.foldM_eq]
  rfl

end RootFinding.Bag
