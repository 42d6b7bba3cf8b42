import RootFinding.Bag.Algebra
import RootFinding.Bag.Pending
import RootFinding.Complex.Bag
import RootFinding.Poly.Text
import RootFinding.Sampling.TestCase
import RootFinding.Sampling.UniformStream
import RootFinding.Search
import RootFinding.Text.Record
import RootFinding.Proofs.Multiplicity
import RootFinding.Proofs.Padding
import RootFinding.Proofs.Exact.Cancellation
import RootFinding.Proofs.Exact.RootMultiplicity
import RootFinding.Proofs.VanishingDivisor
import RootFinding.Proofs.Dispatch
import RootFinding.Proofs.Iteration.Lockstep
import RootFinding.Proofs.Iteration.Settled
import RootFinding.Proofs.Iteration.FixedPoints
import RootFinding.Proofs.ZeroDivisor
import RootFinding.Proofs.Separation
import RootFinding.Proofs.Bag.Elements
import RootFinding.Proofs.Bag.Operations
import RootFinding.Proofs.Bag.Algebra
import RootFinding.Proofs.Bag.Matching
import RootFinding.Proofs.Bag.Nearness
import RootFinding.Proofs.Scaling
import RootFinding.Proofs.Expansion
import RootFinding.Proofs.Iteration.RootSum
import RootFinding.Proofs.Bag.Overflow
import RootFinding.Proofs.Bag.Equivalences
import RootFinding.Proofs.Bag.Cardinality
import RootFinding.Proofs.Bag.Elementwise
import RootFinding.Proofs.Bag.Walks
import RootFinding.Proofs.Bag.Inclusion
import RootFinding.Proofs.Sampling.ConjugatePairs
import RootFinding.Proofs.Sampling.Agreement
import RootFinding.Proofs.Sampling.Residual
import RootFinding.Proofs.Elementary.PrincipalValues
import RootFinding.Proofs.Iteration.Seeds
import RootFinding.Proofs.Bag.Sorting
import RootFinding.Proofs.Tolerance.SquareRoot
import RootFinding.Proofs.Text.Quoting
