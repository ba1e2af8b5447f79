import Rationale.Json.Token

/-!
The document of a JSON text: its containers as they are written, with repeated field names and with
values that cannot be represented. Readers decide what to do with those: `Json.ofDocument?` takes every
value, sorts the fields, and lets the last of a repeated field stand.
-/

namespace Rationale

inductive Json.Document
  | null
  | bool (b : Bool)
  | number (value : Option Json)
  | text (value : Option String)
  | list (items : List Json.Document)
  | record (fields : List (Option String × Json.Document))

namespace Json

/-! ### Reading -/

mutual

/-- A value at the head of the tokens, and the tokens after it. -/
def value? : Nat → List Token → Option (Document × List Token)
  | fuel + 1, token :: rest =>
    match token with
    | .null => some (.null, rest)
    | .bool b => some (.bool b, rest)
    | .number x => some (.number x, rest)
    | .text s => some (.text s, rest)
    | .openList =>
      match rest with
      | .closeList :: rest => some (.list [], rest)
      | _ => do
        let (items, rest) ← items? fuel rest
        some (.list items, rest)
    | .openRecord =>
      match rest with
      | .closeRecord :: rest => some (.record [], rest)
      | _ => do
        let (fields, rest) ← fields? fuel rest
        some (.record fields, rest)
    | _ => none
  | _, _ => none

/-- One or more values up to the end of their list. -/
def items? : Nat → List Token → Option (List Document × List Token)
  | fuel + 1, tokens => do
    let (item, rest) ← value? fuel tokens
    match rest with
    | .comma :: rest =>
      let (items, rest) ← items? fuel rest
      some (item :: items, rest)
    | .closeList :: rest => some ([item], rest)
    | _ => none
  | 0, _ => none

/-- One or more named values up to the end of their record. -/
def fields? : Nat → List Token → Option (List (Option String × Document) × List Token)
  | fuel + 1, .text name :: .colon :: tokens => do
    let (value, rest) ← value? fuel tokens
    match rest with
    | .comma :: rest =>
      let (fields, rest) ← fields? fuel rest
      some ((name, value) :: fields, rest)
    | .closeRecord :: rest => some ([(name, value)], rest)
    | _ => none
  | _, _ => none

end

/-- The document of a whole text. Every second step reads a token, so their number bounds the steps. -/
def Document.parse? (s : String) : Option Document := do
  let tokens ← tokens? (.word []) s.toList
  match ← value? (2 * tokens.length) tokens with
  | (document, []) => some document
  | _ => none

/-! ### Values -/

/-- How many containers may stand inside one another in a file. -/
def maxNesting : Nat := 127

/-- The value of a document with at most `nesting` containers inside one another. -/
def ofDocument? : Nat → Document → Option Json
  | _, .null => some .null
  | _, .bool b => some (.bool b)
  | _, .number x => x
  | _, .text s => s.map .text
  | nesting + 1, .list items => (items.mapM (ofDocument? nesting)).map .list
  | nesting + 1, .record fields => do
    let read ← fields.mapM fun (name, value) => do
      let name ← name
      let value ← ofDocument? nesting value
      some (name, value)
    some (.record (read.foldl (fun sorted (name, value) => insertField name value sorted) []))
  | 0, _ => none

/-- The value of a text with at most `nesting` containers inside one another. -/
def parse? (nesting : Nat) (s : String) : Option Json := do
  ofDocument? nesting (← Document.parse? s)

end Json

end Rationale
