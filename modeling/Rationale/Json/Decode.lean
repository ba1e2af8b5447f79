import Rationale.Json.Basic
import Rationale.Text.Quoted

/-!
Reading typed data from JSON values. Every failure is a `DecodeError`, and `DecodeError.message` words it.
-/

namespace Rationale

/-- What a reader accepts at some place. -/
inductive Wanted
  | natural
  | real
  | boolean
  | text
  | sequence
  | unit
  /-- The name of a case, alone or as the only field of a record. -/
  | caseName
  | record (name : String)

def Wanted.name : Wanted → String
  | .natural => "u32"
  | .real => "f64"
  | .boolean => "a boolean"
  | .text => "a string"
  | .sequence => "a sequence"
  | .unit => "unit"
  | .caseName => "string or map"
  | .record name => "struct " ++ name

/-- Why a value cannot be read. -/
inductive DecodeError
  | wrongType (found : Json) (wanted : Wanted)
  | outOfRange (found : Int)
  | unknownField (name : String) (known : List String)
  | unknownCase (name : String) (known : List String)
  | missingField (name : String)
  /-- A list given for a record ends before a field that must be there. -/
  | tooShort (length : Nat) (record : String) (fields : Nat)
  | tooLong (length : Nat)
  | notOneField

namespace DecodeError

def ticked (s : String) : String := "\x60" ++ s ++ "\x60"

/-- What is found in place of what is wanted. -/
def describe : Json → String
  | .null => "null"
  | .bool b => "boolean " ++ ticked (if b then "true" else "false")
  | .integer i => "integer " ++ ticked (Json.intForm i)
  | .float x => "floating point " ++ ticked x.jsonText
  | .text s => "string " ++ Text.quoted s
  | .list _ => "sequence"
  | .record _ => "map"

def oneOf : List String → String
  | [] => "there are none"
  | [name] => "expected " ++ ticked name
  | [name, other] => "expected " ++ ticked name ++ " or " ++ ticked other
  | names => "expected one of " ++ ", ".intercalate (names.map ticked)

def message : DecodeError → String
  | .wrongType found wanted => "invalid type: " ++ describe found ++ ", expected " ++ wanted.name
  | .outOfRange i =>
    "invalid value: integer " ++ ticked (Json.intForm i) ++ ", expected " ++ Wanted.natural.name
  | .unknownField name known => "unknown field " ++ ticked name ++ ", " ++ oneOf known
  | .unknownCase name known => "unknown variant " ++ ticked name ++ ", " ++ oneOf known
  | .missingField name => "missing field " ++ ticked name
  | .tooShort length record fields =>
    "invalid length " ++ toString length ++ ", expected " ++ (Wanted.record record).name ++ " with "
      ++ toString fields ++ " elements"
  | .tooLong length => "invalid length " ++ toString length ++ ", expected fewer elements in array"
  | .notOneField => "invalid value: map, expected map with a single key"

end DecodeError

namespace Json

def asNatural32 : Json → Except DecodeError Nat
  | .integer i => if 0 ≤ i ∧ i < UInt32.size then .ok i.toNat else .error (.outOfRange i)
  | other => .error (.wrongType other .natural)

def asNumber : Json → Except DecodeError Number
  | .integer i => .ok (Number.ofInt i)
  | .float x => .ok x
  | other => .error (.wrongType other .real)

def asBool : Json → Except DecodeError Bool
  | .bool b => .ok b
  | other => .error (.wrongType other .boolean)

def asText : Json → Except DecodeError String
  | .text s => .ok s
  | other => .error (.wrongType other .text)

/-- Nothing for `null`, and otherwise what `read` makes of the value. -/
def orNull {α : Type} (read : Json → Except DecodeError α) : Json → Except DecodeError (Option α)
  | .null => .ok none
  | other => (read other).map some

/-- The case with the given name among the named cases. -/
def caseNamed {α : Type} (cases : List (String × α)) (name : String) : Except DecodeError α :=
  match cases.find? (·.1 == name) with
  | some (_, x) => .ok x
  | none => .error (.unknownCase name (cases.map (·.1)))

/-- A case without content: its name, or a record of its name and `null`. -/
def asCase {α : Type} (cases : List (String × α)) : Json → Except DecodeError α
  | .text name => caseNamed cases name
  | .record [(name, content)] => do
    let x ← caseNamed cases name
    match content with
    | .null => .ok x
    | other => .error (.wrongType other .unit)
  | .record _ => .error .notOneField
  | other => .error (.wrongType other .caseName)

/-- Reads a record, given by its fields in any order or by a list in the order of `names`, by setting
one field after the other. Fields that are not given keep what `start` has. -/
def asRecord {σ : Type} (record : String) (names : List String)
    (set : String → Json → σ → Except DecodeError σ) (start : σ) : Json → Except DecodeError σ
  | .record fields => fields.foldlM (fun s (name, value) => set name value s) start
  | .list items => do
    let read ← (names.zip items).foldlM (fun s (name, value) => set name value s) start
    if names.length < items.length then .error (.tooLong items.length) else .ok read
  | other => .error (.wrongType other (.record record))

end Json

end Rationale
