import Rationale.Json.Decode
import Rationale.Json.Document

/-!
Descriptions of game trees: labelled nodes inside one another, the leaves with their static evaluation.
Which descriptions are trees is decided node by node in preorder by `TreeSpec.check`.
-/

namespace Rationale

structure TreeSpec where
  label : String
  evaluation : Option Number
  children : List TreeSpec

/-- Why a description is not a tree. -/
inductive TreeError
  | emptyLabel
  | duplicateLabel (label : String)
  | missingEvaluation (label : String)

def TreeError.message : TreeError → String
  | .emptyLabel => "node labels must not be empty"
  | .duplicateLabel label => "label \"" ++ label ++ "\" is used by more than one node"
  | .missingEvaluation label => "leaf \"" ++ label ++ "\" has no evaluation"

namespace TreeSpec

def leaf (label : String) (evaluation : Number) : TreeSpec := ⟨label, some evaluation, []⟩

def internal (label : String) (children : List TreeSpec) : TreeSpec := ⟨label, none, children⟩

/-! ### Nodes -/

mutual

/-- The nodes of a description, parents before children. -/
def preorder : TreeSpec → List TreeSpec
  | ⟨label, evaluation, children⟩ => ⟨label, evaluation, children⟩ :: preorderOfAll children

def preorderOfAll : List TreeSpec → List TreeSpec
  | [] => []
  | s :: rest => s.preorder ++ preorderOfAll rest

end

theorem preorderOfAll_eq (specs : List TreeSpec) : preorderOfAll specs = specs.flatMap preorder := by
  induction specs with
  | nil => rfl
  | cons s rest ih => simp [preorderOfAll, ih]

/-- How many nodes a description has. -/
def size (s : TreeSpec) : Nat := s.preorder.length

/-- Checks nodes in order, when the labels `seen` are taken: a node needs a label, one of its own, and an
evaluation if it is a leaf. -/
def checkNodes (seen : List String) : List TreeSpec → Except TreeError Unit
  | [] => .ok ()
  | s :: rest =>
    if s.label.isEmpty then .error .emptyLabel
    else if seen.contains s.label then .error (.duplicateLabel s.label)
    else if s.children.isEmpty && s.evaluation.isNone then .error (.missingEvaluation s.label)
    else checkNodes (s.label :: seen) rest

/-- The first fault of a description, in preorder. -/
def check (s : TreeSpec) : Except TreeError Unit := checkNodes [] s.preorder

/-! ### JSON -/

mutual

/-- Evaluations and children that are not there are not written. -/
def toJson : TreeSpec → Json
  | ⟨label, evaluation, children⟩ =>
    .record (("label", .text label)
      :: ((evaluation.map fun x => ("evaluation", Json.float x)).toList
        ++ if children.isEmpty then [] else [("children", .list (toJsonOfAll children))]))

def toJsonOfAll : List TreeSpec → List Json
  | [] => []
  | s :: rest => s.toJson :: toJsonOfAll rest

end

def fieldNames : List String := ["label", "evaluation", "children"]

/-- A description that is being read. -/
structure Draft where
  label : Option String := none
  evaluation : Option Number := none
  children : List TreeSpec := []

/-- The description, if its label was given; `missing` is the fault otherwise. -/
def Draft.finish (d : Draft) (missing : DecodeError) : Except DecodeError TreeSpec :=
  match d.label with
  | some label => .ok ⟨label, d.evaluation, d.children⟩
  | none => .error missing

mutual

/-- Reads a record by its known fields, or a list of up to three values in the order of the fields. -/
def ofJson : Json → Except DecodeError TreeSpec
  | .record fields => do (← readFields {} fields).finish (.missingField "label")
  | .list items => do
    let d ← readItems {} fieldNames items
    let spec ← d.finish (.tooShort 0 "TreeSpec" 3)
    if 3 < items.length then .error (.tooLong items.length) else .ok spec
  | other => .error (.wrongType other (.record "TreeSpec"))

/-- Sets the named field to what is written for it. -/
def readField (name : String) (value : Json) (d : Draft) : Except DecodeError Draft :=
  match name with
  | "label" => do return { d with label := ← some <$> value.asText }
  | "evaluation" => do return { d with evaluation := ← value.orNull Json.asNumber }
  | "children" =>
    match value with
    | .list items => do return { d with children := ← readAll items }
    | other => .error (.wrongType other .sequence)
  | _ => .ok d

def readFields (d : Draft) : List (String × Json) → Except DecodeError Draft
  | [] => .ok d
  | (name, value) :: rest => do readFields (← readField name value d) rest

def readItems (d : Draft) : List String → List Json → Except DecodeError Draft
  | name :: names, value :: rest => do readItems (← readField name value d) names rest
  | _, _ => .ok d

def readAll : List Json → Except DecodeError (List TreeSpec)
  | [] => .ok []
  | value :: rest => do
    let s ← ofJson value
    return s :: (← readAll rest)

end

/-! ### Files -/

/-- The evaluation written in a file. -/
def evaluationOf? : Json.Document → Option (Option Number)
  | .null => some none
  | .number value => do
    match (← value).asNumber with
    | .ok x => some (some x)
    | .error _ => none
  | _ => none

/-- The description in a file with at most `nesting` containers inside one another. A known field may be
given once only; what an unknown one holds does not matter. -/
def ofDocument? : Nat → Json.Document → Option TreeSpec
  | nesting + 1, .record fields => do
    let known (name : String) : List Json.Document :=
      fields.filterMap fun (n, value) => if n = some name then some value else none
    if fields.any (·.1.isNone) then none
    else
      let label ← match known "label" with
        | [.text s] => s
        | _ => none
      let evaluation ← match known "evaluation" with
        | [] => some none
        | [value] => evaluationOf? value
        | _ => none
      let children ← match known "children" with
        | [] => some []
        | [value] => childrenOf? nesting value
        | _ => none
      some ⟨label, evaluation, children⟩
  | nesting + 1, .list items =>
    match items with
    | [.text s] => s.map fun label => ⟨label, none, []⟩
    | [.text s, evaluation] => do some ⟨← s, ← evaluationOf? evaluation, []⟩
    | [.text s, evaluation, children] => do
      some ⟨← s, ← evaluationOf? evaluation, ← childrenOf? nesting children⟩
    | _ => none
  | _, _ => none
where
  /-- The children in a list that is itself one of the containers. -/
  childrenOf? : Nat → Json.Document → Option (List TreeSpec)
    | nesting + 1, .list items => items.mapM (ofDocument? nesting)
    | _, _ => none

end TreeSpec

end Rationale
