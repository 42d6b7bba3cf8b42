import RootFinding.Fault

/-!
# Bags

A bag says how often each value occurs. It is a list of entries, each a value with its
count, and every operation keeps two things: no count is zero, and no two entries have equal
values. A bag whose entries stand in another order is the same bag, so a statement about all
bags covers every order in which a bag could be walked.

Values are compared by `==`, which need not be reflexive. A value that is not equal to
itself is never found: each time it is inserted it gets an entry of its own.

Counts are 64-bit counters. Adding is checked step by step and overflow is a fault.
-/

namespace RootFinding

/-- A finite collection in which values have a number of occurrences and no position. -/
structure Bag (α : Type) where
  entries : List (α × Nat)
  deriving Repr

namespace Bag

variable {α : Type}

/-- The largest value of a counter. -/
def countLimit : Nat := UInt64.size - 1

/-- The sum of two counts, if a counter can hold it. -/
def addCounts (m n : Nat) : Except Fault Nat :=
  if m + n ≤ countLimit then .ok (m + n) else .error .countOverflow

/-- The bag without elements. -/
def empty : Bag α := ⟨[]⟩

instance : EmptyCollection (Bag α) := ⟨empty⟩
instance : Inhabited (Bag α) := ⟨empty⟩

/-- True of the bag without elements. -/
def isEmpty (bag : Bag α) : Bool := bag.entries.isEmpty

/-- The number of entries. -/
def distinct (bag : Bag α) : Nat := bag.entries.length

/-- The sum of the counts in a list of entries. -/
def weight : List (α × Nat) → Nat
  | [] => 0
  | entry :: rest => entry.2 + weight rest

/-- An empty table counts nothing. -/
@[simp] theorem weight_nil : weight ([] : List (α × Nat)) = 0 := rfl

/-- A further entry adds its count. -/
@[simp] theorem weight_cons (entry : α × Nat) (rest : List (α × Nat)) :
    weight (entry :: rest) = entry.2 + weight rest := rfl

/-- The number of elements, each counted as often as it occurs. -/
def total (bag : Bag α) : Nat := weight bag.entries

/-- The number of elements as a counter, summed entry by entry. -/
def size (bag : Bag α) : Except Fault Nat :=
  bag.entries.foldlM (fun sum entry => addCounts sum entry.2) 0

/-- Checked addition of counts one by one succeeds exactly if their sum fits, and then gives it. -/
theorem foldlM_addCounts (entries : List (α × Nat)) {sum : Nat} (small : sum ≤ countLimit) :
    entries.foldlM (fun sum entry => addCounts sum entry.2) sum =
      if sum + weight entries ≤ countLimit then .ok (sum + weight entries)
      else .error Fault.countOverflow := by
  induction entries generalizing sum with
  | nil => simp [small, pure, Except.pure]
  | cons entry rest inductionHypothesis =>
      by_cases fits : sum + entry.2 ≤ countLimit
      · have step : addCounts sum entry.2 = .ok (sum + entry.2) := if_pos fits
        rw [List.foldlM_cons, step]
        have summed := inductionHypothesis fits
        rw [Nat.add_assoc] at summed
        exact summed
      · have step : addCounts sum entry.2 = .error .countOverflow := if_neg fits
        have exceeds : ¬sum + (entry.2 + weight rest) ≤ countLimit := by omega
        rw [List.foldlM_cons, step, weight_cons, if_neg exceeds]
        rfl

/-- The size overflows exactly if the total number of elements is too large for a counter. -/
theorem size_eq (bag : Bag α) :
    bag.size = if bag.total ≤ countLimit then .ok bag.total else .error .countOverflow := by
  have summed := foldlM_addCounts bag.entries (Nat.zero_le countLimit)
  rwa [Nat.zero_add] at summed

section Lookup

variable [BEq α]

/-- The count stored for a value. -/
def get? (bag : Bag α) (value : α) : Option Nat :=
  (bag.entries.find? fun entry => entry.1 == value).map Prod.snd

/-- How often a value occurs. -/
def count (bag : Bag α) (value : α) : Nat := (bag.get? value).getD 0

/-- Whether a value occurs. -/
def contains (bag : Bag α) (value : α) : Bool := bag.entries.any fun entry => entry.1 == value

/-- Raise the count of a value in a list of entries. A new value comes last; a value that is
there keeps the representative that was stored first. -/
def insertEntry (value : α) (n : Nat) : List (α × Nat) → Except Fault (List (α × Nat))
  | [] => return [(value, ← addCounts 0 n)]
  | (stored, m) :: rest =>
      if stored == value then return (stored, ← addCounts m n) :: rest
      else return (stored, m) :: (← insertEntry value n rest)

/-- Add `n` occurrences of a value; none leaves the bag as it is. -/
def insertMany (bag : Bag α) (value : α) (n : Nat) : Except Fault (Bag α) :=
  if n = 0 then return bag else return ⟨← insertEntry value n bag.entries⟩

/-- Add one occurrence of a value. -/
def insert (bag : Bag α) (value : α) : Except Fault (Bag α) := bag.insertMany value 1

/-- Add one occurrence of each value of a list, in turn. -/
def insertAll (bag : Bag α) (values : List α) : Except Fault (Bag α) := values.foldlM insert bag

/-- Add the values of a list of entries with their counts, in turn. -/
def insertEntries (bag : Bag α) (entries : List (α × Nat)) : Except Fault (Bag α) :=
  entries.foldlM (fun bag entry => bag.insertMany entry.1 entry.2) bag

/-- The bag of the values of a list. -/
def ofList (values : List α) : Except Fault (Bag α) := (∅ : Bag α).insertAll values

/-- The bag of the values of a list of entries with their counts. -/
def ofEntries (entries : List (α × Nat)) : Except Fault (Bag α) :=
  (∅ : Bag α).insertEntries entries

/-- Take one occurrence of a value out of a list of entries that holds it. The last
occurrence takes the entry with it. -/
def removeEntry (value : α) : List (α × Nat) → List (α × Nat)
  | [] => []
  | (stored, n) :: rest =>
      if stored == value then if 1 < n then (stored, n - 1) :: rest else rest
      else (stored, n) :: removeEntry value rest

/-- Take one occurrence of a value out, and tell whether there was one. -/
def remove (bag : Bag α) (value : α) : Bag α × Bool :=
  (⟨removeEntry value bag.entries⟩, bag.contains value)

/-- Take every occurrence of a value out, and tell how many there were. -/
def removeAll (bag : Bag α) (value : α) : Bag α × Nat :=
  (⟨bag.entries.eraseP fun entry => entry.1 == value⟩, bag.count value)

end Lookup

end Bag

end RootFinding
