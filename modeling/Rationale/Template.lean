import Rationale.Operator
import Rationale.Value

/-!
Explanation templates. A template says once, for every node, why an adjective has the value it has, in
terms of other adjectives; it is filled in for a node when an explanation is asked for.
-/

namespace Rationale

/-! ### Assumptions -/

inductive AssumptionKind
  /-- A text of the author of the framework. -/
  | stated (text : String)
  | definition (adjective : String) (definition : Option String)
  | comparison (adjective base : String) (operator : Operator)
  | rank (kind : RankKind) (adjective comparison group : String)

/-- A justification that refers to nothing else. An implicit one is shown only when implicit assumptions
are asked for, and a necessary one always in full. -/
structure Assumption where
  kind : AssumptionKind
  implicit : Bool
  necessary : Bool := false

namespace Assumption

def stated (text : String) : Assumption := ⟨.stated text, false, false⟩

def definition (adjective : String) (text : Option String) : Assumption :=
  ⟨.definition adjective text, true, false⟩

def comparison (adjective base : String) (operator : Operator) : Assumption :=
  ⟨.comparison adjective base operator, true, false⟩

def rank (kind : RankKind) (adjective comparison group : String) : Assumption :=
  ⟨.rank kind adjective comparison group, true, false⟩

def quote (s : String) : String := "\"" ++ s ++ "\""

/-- The text of an assumption, in the framework's word for nodes. -/
def description (a : Assumption) (nodeWord : String) : String :=
  match a.kind with
  | .stated text => text
  | .definition adjective (some text) => "Definition of " ++ quote adjective ++ " is " ++ text
  | .definition adjective none => "Definition of " ++ quote adjective
  | .comparison adjective base operator =>
    "By definition, " ++ nodeWord ++ "1 is " ++ quote adjective ++ " than " ++ nodeWord ++ "2 if "
      ++ nodeWord ++ "1 " ++ base ++ " " ++ operator.name ++ " " ++ nodeWord ++ "2 " ++ base
  | .rank .max adjective comparison group =>
    "By definition a " ++ nodeWord ++ " is " ++ quote adjective ++ " if it's " ++ quote comparison
      ++ " than all " ++ quote group
  | .rank .min adjective comparison group =>
    "By definition a " ++ nodeWord ++ " is " ++ quote adjective ++ " if it's not " ++ quote comparison
      ++ " than any " ++ quote group

end Assumption

/-! ### Templates -/

/-- A test on the node, or on the node its pointer `via` points at. -/
structure Condition where
  adjective : String
  via : Option String
  expected : Literal

inductive Template
  | assume (assumption : Assumption)
  /-- The node, or the one reached through `via`, has `adjective`. It is explained why, unless
  `explainFurther` is off, and why the pointer points there, unless `forwardPointer` is. -/
  | possess (adjective : String) (via : Option String) (explainFurther forwardPointer : Bool)
  /-- The node compares to the node it points at. -/
  | compare (comparison pointer : String)
  /-- The node compares to every node of a group, or to none. -/
  | compareGroup (comparison group : String) (positive : Bool)
  /-- Both nodes of a comparison have `adjective`. -/
  | compared (adjective : String)
  | all (items : List Template)
  | branch (condition : Condition) (ifTrue ifFalse : Template)
  /-- Following `pointer` from the node leads to one where `goal` holds, and that one has `adjective`. -/
  | recurse (pointer adjective goal : String)

/-- What a template needs a name to be. -/
inductive Role
  | any
  | boolean
  | pointer
  | quantitative
  | nodesGroup
  | comparison
deriving DecidableEq

def Role.name : Role → String
  | .any => "any"
  | .boolean => "boolean"
  | .pointer => "pointer"
  | .quantitative => "quantitative"
  | .nodesGroup => "nodes_group"
  | .comparison => "comparison"

namespace Template

/-- A pointer is used as a pointer. -/
def viaReference : Option String → List (String × Role)
  | none => []
  | some pointer => [(pointer, .pointer)]

mutual

/-- Every name a template refers to, with what it is used as. -/
def references : Template → List (String × Role)
  | .assume _ => []
  | .possess adjective via _ _ => (adjective, .any) :: viaReference via
  | .compare comparison pointer => [(comparison, .comparison), (pointer, .pointer)]
  | .compareGroup comparison group _ => [(comparison, .comparison), (group, .nodesGroup)]
  | .compared adjective => [(adjective, .quantitative)]
  | .all items => referencesOfAll items
  | .branch c ifTrue ifFalse =>
    (c.adjective, .any) :: viaReference c.via ++ ifTrue.references ++ ifFalse.references
  | .recurse pointer adjective goal => [(pointer, .pointer), (adjective, .any), (goal, .boolean)]

def referencesOfAll : List Template → List (String × Role)
  | [] => []
  | t :: rest => t.references ++ referencesOfAll rest

end

theorem referencesOfAll_eq (items : List Template) :
    referencesOfAll items = items.flatMap references := by
  induction items with
  | nil => rfl
  | cons t rest ih => simp [referencesOfAll, ih]

end Template

end Rationale
