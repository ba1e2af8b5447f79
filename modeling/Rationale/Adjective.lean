import Rationale.Tactic
import Rationale.Template

/-!
Adjectives: the named properties of nodes, each with the kind of its values, where they come from, and
why they are what they are.
-/

namespace Rationale

inductive AdjectiveKind
  | boolean
  /-- The value is a node, or nothing. -/
  | pointer
  | quantitative
  /-- The value is a list of nodes, from which the node itself may be taken out. -/
  | nodesGroup (excludingSelf : Bool)
  /-- The value is anything. The adjective is not public. -/
  | auxiliary
  /-- Compares the values of `base` on two nodes. -/
  | comparison (base : String) (operator : Operator)
  /-- Compares a node with every member of a group. -/
  | rank (kind : RankKind) (comparison group : String)
deriving DecidableEq

namespace AdjectiveKind

def origin : AdjectiveKind → OriginKind
  | .boolean => .boolean
  | .pointer => .pointer
  | .quantitative => .quantitative
  | .nodesGroup _ => .nodesGroup
  | .auxiliary => .auxiliary
  | .comparison _ _ => .comparison
  | .rank _ _ _ => .rank

/-- The kind in words. -/
def describe : AdjectiveKind → String
  | .boolean => "a boolean adjective"
  | .pointer => "a pointer adjective"
  | .quantitative => "a quantitative adjective"
  | .nodesGroup _ => "a nodes group adjective"
  | .auxiliary => "an auxiliary adjective"
  | .comparison _ _ => "a comparison adjective"
  | .rank _ _ _ => "a rank adjective"

end AdjectiveKind

/-- A named property of nodes. -/
structure Adjective (N : Type) where
  name : String
  kind : AdjectiveKind
  getter : Option (Getter N) := none
  definition : Option String := none
  /-- The template of the author, if there is one. -/
  explanation : Option Template := none
  /-- What is applied whenever the adjective is explained. -/
  tactics : List Tactic := []

namespace Adjective

variable {N : Type}

/-- The adjective with the node itself taken out of its group, if it has one. -/
def excludingSelf (a : Adjective N) : Adjective N :=
  match a.kind with
  | .nodesGroup _ => { a with kind := .nodesGroup true }
  | _ => a

def isPublic (a : Adjective N) : Bool := a.kind != .auxiliary

def isComparison (a : Adjective N) : Bool := a.kind.origin == .comparison

/-- The template an adjective is explained by. Without one of its author's, a comparison is explained by
its definition and both base values, a rank by its definition and the comparison with the group, and any
other adjective by its definition. -/
def template (a : Adjective N) : Template :=
  match a.explanation with
  | some t => t
  | none =>
    match a.kind with
    | .comparison base operator =>
      .all [.assume (.comparison a.name base operator), .compared base]
    | .rank kind comparison group =>
      .all [.assume (.rank kind a.name comparison group), .compareGroup comparison group (kind == .max)]
    | _ => .assume (.definition a.name a.definition)

end Adjective

end Rationale
