/-!
# Pseudo-random words

A generator is one 64-bit word. A step adds an odd constant, so that all words are visited
before one recurs, and the output mixes the new word by a double-width product folded in
half.
-/

namespace RootFinding

/-- The state of a generator. -/
structure Generator where
  state : UInt64
  deriving Repr, DecidableEq

namespace Generator

/-- The distance between successive states. -/
def increment : UInt64 := 0x2d358dccaa6c78a5

/-- What a state is combined with before it is multiplied by itself. -/
def mask : UInt64 := 0x8bb84b93962eacc9

/-- The two halves of the double-width product of two words, combined. -/
def foldedProduct (x y : UInt64) : UInt64 :=
  let product := x.toNat * y.toNat
  product.toUInt64 ^^^ (product / UInt64.size).toUInt64

/-- The next word, and the generator after it. -/
def next (generator : Generator) : UInt64 × Generator :=
  let state := generator.state + increment
  (foldedProduct state (state ^^^ mask), ⟨state⟩)

/-- The upper 63 bits of a word as a fraction of their range. The largest of them round up
to one. -/
def fraction (word : UInt64) : Float :=
  (word >>> 1).toFloat / 9223372036854775808.0

/-- The first fraction below one, among those of the next `attempts` words. -/
def uniform? : Nat → Generator → Option (Float × Generator)
  | 0, _ => none
  | attempts + 1, generator =>
      let (word, generator) := generator.next
      if fraction word < 1 then some (fraction word, generator) else uniform? attempts generator

/-- A number uniformly distributed from zero to below one. Every word comes up within a
period, so some attempt succeeds. -/
def uniform (generator : Generator) : Option (Float × Generator) :=
  uniform? UInt64.size generator

end Generator

end RootFinding
