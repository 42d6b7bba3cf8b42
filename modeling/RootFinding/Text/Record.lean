import RootFinding.Bag.Walk
import RootFinding.Complex.Text
import RootFinding.Text.Quoted

/-!
# Records

A record is a text for diagnosis. A display is for readers and may be the same for different values;
a record says exactly what the value is. That of a bag lists those of its elements.
-/

namespace RootFinding

/-- Values with a record. -/
class Recorded (α : Type) where
  record : α → String

instance : Recorded String where
  record := Text.quote

instance {R : Type} [BinaryFloat R] : Recorded (Complex R) where
  record := Complex.record

/-- Every element, as often as it occurs, in the order of the table. -/
def Bag.record {α : Type} [Recorded α] (bag : Bag α) : String :=
  bag.text Recorded.record

end RootFinding
