import RootFinding.Binary.Hardware
import RootFinding.Coefficient

/-!
# Zero and one

The search relies on two things about its constants: zero is equal to itself, so that the roots at
the origin share an entry, and one is not negligible, so that a monic polynomial keeps its degree.
Rounding touches neither, and the hardware numbers have both.
-/

namespace RootFinding

/-- What a search relies on about zero and one. -/
class StandardConstants (K : Type) {R : Type} [Zero K] [One K] [BEq K] [Coefficient K R] :
    Prop where
  zero_beq_zero : ((0 : K) == 0) = true
  isNegligible_one : Coefficient.isNegligible (1 : K) = false

instance : StandardConstants (Complex Float) where
  zero_beq_zero := by decide +kernel
  isNegligible_one := by decide +kernel

instance : StandardConstants (Complex Float32) where
  zero_beq_zero := by decide +kernel
  isNegligible_one := by decide +kernel

end RootFinding
