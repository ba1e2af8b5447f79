import Rationale.Number.Text

/-!
JSON values and their two written forms. A record keeps its fields in the order they are written;
`Json.ofDocument?` delivers them sorted and without repetition.
-/

namespace Rationale

inductive Json
  | null
  | bool (b : Bool)
  | integer (i : Int)
  | float (x : Number)
  | text (s : String)
  | list (items : List Json)
  | record (fields : List (String × Json))
deriving Inhabited

namespace Json

/-! ### Writing -/

/-- A character inside a JSON text. -/
def escapedChar (c : Char) : List Char :=
  if c = '"' || c = '\\' then ['\\', c]
  else if c = '\n' then ['\\', 'n']
  else if c = '\r' then ['\\', 'r']
  else if c = '\t' then ['\\', 't']
  else if c.toNat = 8 then ['\\', 'b']
  else if c.toNat = 12 then ['\\', 'f']
  else if c.toNat < 16 then ['\\', 'u', '0', '0', '0'] ++ Nat.toDigits 16 c.toNat
  else if c.toNat < 32 then ['\\', 'u', '0', '0'] ++ Nat.toDigits 16 c.toNat
  else [c]

def textForm (s : String) : String := String.ofList ('"' :: s.toList.flatMap escapedChar ++ ['"'])

def intForm (i : Int) : String := if i < 0 then "-" ++ toString i.natAbs else toString i.natAbs

mutual

/-- The form on one line without blanks. -/
def compact : Json → String
  | .null => "null"
  | .bool b => if b then "true" else "false"
  | .integer i => intForm i
  | .float x => x.jsonText
  | .text s => textForm s
  | .list items => "[" ++ ",".intercalate (compactItems items) ++ "]"
  | .record fields => "\x7b" ++ ",".intercalate (compactFields fields) ++ "\x7d"

def compactItems : List Json → List String
  | [] => []
  | item :: rest => item.compact :: compactItems rest

def compactFields : List (String × Json) → List String
  | [] => []
  | (name, value) :: rest => (textForm name ++ ":" ++ value.compact) :: compactFields rest

end

/-- The entries of a container on lines of their own, one step deeper than `margin`. -/
def block (left right margin : String) (entries : List String) : String :=
  if entries.isEmpty then left ++ right
  else
    let inner := "\n" ++ margin ++ "  "
    left ++ inner ++ ("," ++ inner).intercalate entries ++ "\n" ++ margin ++ right

mutual

/-- The form with one entry a line, indented by two spaces a level. -/
def pretty (margin : String) : Json → String
  | .list items => block "[" "]" margin (prettyItems (margin ++ "  ") items)
  | .record fields => block "\x7b" "\x7d" margin (prettyFields (margin ++ "  ") fields)
  | other => other.compact

def prettyItems (margin : String) : List Json → List String
  | [] => []
  | item :: rest => item.pretty margin :: prettyItems margin rest

def prettyFields (margin : String) : List (String × Json) → List String
  | [] => []
  | (name, value) :: rest => (textForm name ++ ": " ++ value.pretty margin) :: prettyFields margin rest

end

/-! ### Records -/

/-- The fields with `name` set to `value`, sorted by name as `fields` are. -/
def insertField (name : String) (value : Json) : List (String × Json) → List (String × Json)
  | [] => [(name, value)]
  | (other, old) :: rest =>
    if name = other then (name, value) :: rest
    else if name < other then (name, value) :: (other, old) :: rest
    else (other, old) :: insertField name value rest

def field? (name : String) : Json → Option Json
  | .record fields => (fields.find? (·.1 == name)).map (·.2)
  | _ => none

end Json

end Rationale
