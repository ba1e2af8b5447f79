/-!
Values chosen by name from a fixed list.
-/

namespace Rationale

/-- A text that names none of the values it may name. -/
structure ChoiceError where
  kind : String
  value : String
  expected : String

def ChoiceError.message (e : ChoiceError) : String :=
  "invalid " ++ e.kind ++ " \"" ++ e.value ++ "\" (expected one of: " ++ e.expected ++ ")"

/-- The named value; `kind` says what the values are. -/
def choose {α : Type} (kind : String) (values : List (String × α)) (s : String) : Except ChoiceError α :=
  match values.find? (·.1 == s) with
  | some (_, x) => .ok x
  | none => .error ⟨kind, s, ", ".intercalate (values.map (·.1))⟩

end Rationale
