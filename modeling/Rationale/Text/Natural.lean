import Rationale.Number.Text

/-!
Natural numbers in decimal text: at least one digit, a plus sign in front of them allowed.
-/

namespace Rationale.Text

/-- The number below `bound` that a text writes. -/
def natural? (bound : Nat) (s : String) : Option Nat :=
  let digits := match s.toList with
    | '+' :: rest => rest
    | cs => cs
  let n := Number.readDigits digits
  if !digits.isEmpty && digits.all Char.isDigit && decide (n < bound) then some n else none

end Rationale.Text
