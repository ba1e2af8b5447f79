/-!
Classes of characters, given by the ranges of code points they consist of.
-/

namespace Rationale.Text

/-- A class of characters: ascending ranges of code points, both ends included. -/
structure CharClass where
  ranges : Array (Nat × Nat)

/-- Whether `c` belongs to the class. -/
def CharClass.has (k : CharClass) (c : Char) : Bool :=
  k.ranges.any fun (first, last) => decide (first ≤ c.toNat) && decide (c.toNat ≤ last)

end Rationale.Text
