import RootFinding.Complex.Basic
import RootFinding.Binary.Hardware
import RootFinding.Fault
import RootFinding.Sampling.Generator

/-!
# Uniform streams

Streams of complex numbers with parts uniformly distributed in ranges. A stream is a value,
so that equal streams yield equal samples.
-/

namespace RootFinding

/-- A range of scalars from `least` to below `greatest`. -/
structure Range where
  least : Float
  greatest : Float

namespace Range

/-- Whether the ends are in order. A range with an end that is not a number is not. -/
def isOrdered (range : Range) : Bool := range.least ≤ range.greatest

/-- The point of a range at a fraction of its length, rounded once. -/
def pointAt (range : Range) (fraction : Float) : Float :=
  BinaryFloat.mulAdd fraction (range.greatest - range.least) range.least

/-- The next sample of a range, and the generator after it. -/
def sample (range : Range) (generator : Generator) : Option (Float × Generator) := do
  let (fraction, generator) ← generator.uniform
  return (range.pointAt fraction, generator)

end Range

/-- Real numbers from a range. -/
structure RealStream where
  generator : Generator
  range : Range

namespace RealStream

/-- The stream that a seed starts. -/
def ofSeed (seed : UInt64) (range : Range) : Except Fault RealStream :=
  if range.isOrdered then .ok ⟨⟨seed⟩, range⟩ else .error .reversedRange

instance : Std.Stream RealStream (Complex Float) where
  next? stream := do
    let (x, generator) ← stream.range.sample stream.generator
    return (Complex.ofReal x, { stream with generator })

end RealStream

/-- Complex numbers from a rectangle. -/
structure RectangleStream where
  generator : Generator
  re : Range
  im : Range

namespace RectangleStream

/-- The stream that a seed starts. -/
def ofSeed (seed : UInt64) (re im : Range) : Except Fault RectangleStream :=
  if re.isOrdered && im.isOrdered then .ok ⟨⟨seed⟩, re, im⟩ else .error .reversedRange

instance : Std.Stream RectangleStream (Complex Float) where
  next? stream := do
    let (x, generator) ← stream.re.sample stream.generator
    let (y, generator) ← stream.im.sample generator
    return (⟨x, y⟩, { stream with generator })

end RectangleStream

end RootFinding
