import Rationale.Choice
import Rationale.Number.Basic

/-!
The relations between numbers that comparison adjectives use, and the two ranks within a group.
-/

namespace Rationale

inductive Operator
  | greater
  | less
  | equal
  | notEqual
  | greaterOrEqual
  | lessOrEqual
deriving DecidableEq

namespace Operator

def name : Operator → String
  | .greater => ">"
  | .less => "<"
  | .equal => "=="
  | .notEqual => "!="
  | .greaterOrEqual => ">="
  | .lessOrEqual => "<="

/-- Whether the relation holds. What is not a number is different from everything. -/
def holds : Operator → Number → Number → Bool
  | .greater, x, y => y.lt x
  | .less, x, y => x.lt y
  | .equal, x, y => x.eq y
  | .notEqual, x, y => !x.eq y
  | .greaterOrEqual, x, y => y.le x
  | .lessOrEqual, x, y => x.le y

def parse (s : String) : Except ChoiceError Operator :=
  choose "comparison operator" ([.greater, .less, .equal, .notEqual, .greaterOrEqual, .lessOrEqual].map
    fun (o : Operator) => (o.name, o)) s

end Operator

inductive RankKind
  /-- Beats every member of the group. -/
  | max
  /-- Beats no member of the group. -/
  | min
deriving DecidableEq

def RankKind.name : RankKind → String
  | .max => "max"
  | .min => "min"

end Rationale
