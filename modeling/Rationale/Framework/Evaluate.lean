import Rationale.Framework.Basic

/-!
Values of adjectives on nodes. Getters give them for most kinds; a comparison compares the values of its
base on two nodes, and a rank compares a node with the members of its group, up to the first that decides
it. An error keeps the chain of adjectives that depend on the one that failed.

In a framework that was not validated, a rank can depend on itself. No chain of different adjectives is
longer than the framework, so an evaluation that goes deeper never ends, and is an error of its own.
-/

namespace Rationale

/-- Why an adjective has no value on a node. -/
inductive EvaluationError
  | missingGetter (adjective : String)
  | getter (adjective node : String) (cause : GetterError)
  | unexpectedValue (adjective node : String) (expected found : ValueKind)
  | requiresTwoNodes (adjective : String)
  | notAComparison (adjective : String)
  | unknownReference (adjective : String)
  /-- The evaluation of the adjective needs the adjective itself. -/
  | endless (adjective : String)
  | dependent (adjective node dependency : String) (cause : EvaluationError)

namespace EvaluationError

def message : EvaluationError → String
  | .missingGetter adjective => "no getter is set for adjective \"" ++ adjective ++ "\""
  | .getter _ _ cause => cause.message
  | .unexpectedValue adjective node expected found =>
    "adjective \"" ++ adjective ++ "\" should evaluate to " ++ expected.name ++ " on " ++ node
      ++ ", got " ++ found.name
  | .requiresTwoNodes adjective => "comparison adjective \"" ++ adjective ++ "\" needs two nodes"
  | .notAComparison adjective => "adjective \"" ++ adjective ++ "\" is not a comparison"
  | .unknownReference adjective => "unknown adjective \"" ++ adjective ++ "\""
  | .endless adjective => "adjective \"" ++ adjective ++ "\" depends on itself"
  | .dependent adjective node dependency cause =>
    "the adjective \"" ++ adjective ++ "\" cannot be evaluated on " ++ node
      ++ " because dependent adjective \"" ++ dependency ++ "\" cannot be evaluated ("
      ++ cause.message ++ ")"

/-- The adjective that failed first along the chain. -/
def rootAdjective : EvaluationError → String
  | .missingGetter adjective => adjective
  | .getter adjective _ _ => adjective
  | .unexpectedValue adjective _ _ _ => adjective
  | .requiresTwoNodes adjective => adjective
  | .notAComparison adjective => adjective
  | .unknownReference adjective => adjective
  | .endless adjective => adjective
  | .dependent _ _ _ cause => cause.rootAdjective

end EvaluationError

namespace AdjectiveKind

/-- The kind of value a getter must deliver, if only one will do. -/
def wanted? : AdjectiveKind → Option ValueKind
  | .boolean => some .boolean
  | .pointer => some .node
  | .quantitative => some .number
  | .nodesGroup _ => some .nodes
  | _ => none

/-- Whether a getter may deliver the value. A pointer may point nowhere. -/
def admits (k : AdjectiveKind) (found : ValueKind) : Bool :=
  match k.wanted? with
  | none => true
  | some wanted => wanted == found || (k == .pointer && found == .nothing)

end AdjectiveKind

variable {N : Type} [Node N]

/-- The value without the node itself, if it is a group that leaves it out. -/
def Value.without (node : N) (k : AdjectiveKind) : Value N → Value N
  | .nodes ns => if k = .nodesGroup true then .nodes (ns.filter (!Node.same · node)) else .nodes ns
  | v => v

/-- The value that the getter of an adjective delivers for a node. -/
def Adjective.fetch (a : Adjective N) (node : N) : Except EvaluationError (Value N) :=
  match a.getter with
  | none => .error (.missingGetter a.name)
  | some getter =>
    match getter node with
    | .error cause => .error (.getter a.name (Node.label node) cause)
    | .ok value =>
      if a.kind.admits value.kind then .ok (value.without node a.kind)
      else .error (.unexpectedValue a.name (Node.label node) (a.kind.wanted?.getD .nothing) value.kind)

/-- The claim that a node has a value of an adjective. -/
def Adjective.claim (a : Adjective N) (node : N) (value : Value N) : Claim :=
  match a.kind, value with
  | .boolean, .bool truth => Claim.withTruth ⟨Node.label node, .is a.name, false⟩ truth
  | .rank _ _ _, .bool truth => Claim.withTruth ⟨Node.label node, .is a.name, false⟩ truth
  | _, value => ⟨Node.label node, .has a.name value.toText, false⟩

/-- How adjectives get their values on nodes. -/
abbrev Evaluation (N : Type) := String → N → Except EvaluationError (Value N)

namespace Evaluation

variable (value : Evaluation N)

/-- The value as `read` tells it, which tells those of the wanted kind only. -/
def view {α : Type} (read : Value N → Option α) (wanted : ValueKind) (name : String) (node : N) :
    Except EvaluationError α := do
  let found ← value name node
  match read found with
  | some x => return x
  | none => throw (.unexpectedValue name (Node.label node) wanted found.kind)

/-- The members of a group on a node. -/
def group : String → N → Except EvaluationError (List N) := value.view Value.asNodes? .nodes

/-- The number an adjective has on a node. -/
def number : String → N → Except EvaluationError Number := value.view Value.asNumber? .number

end Evaluation

/-- Whether a comparison with a member agrees with a rank. -/
def RankKind.agrees : RankKind → Bool → Bool
  | .max, holds => holds
  | .min, holds => !holds

/-- Whether every comparison agrees with a rank, up to the first that does not. -/
def RankKind.verdict (k : RankKind) (compare : N → Except EvaluationError Bool) :
    List N → Except EvaluationError Bool
  | [] => return true
  | member :: rest => do
    if k.agrees (← compare member) then k.verdict compare rest else return false

namespace Framework

variable (F : Framework N)

/-- Whether `a` is `name` than `b`, by the given values of the base. -/
def compareBy (value : Evaluation N) (name : String) (a b : N) : Except EvaluationError Bool :=
  match F.adjective? name with
  | none => .error (.unknownReference name)
  | some adjective =>
    match adjective.kind with
    | .comparison base operator => do
      let x ← (value.number base a).mapError (.dependent name (Node.label a) base)
      let y ← (value.number base b).mapError (.dependent name (Node.label b) base)
      return operator.holds x y
    | _ => .error (.notAComparison name)

/-- The value of an adjective on a node, through chains of at most `depth` adjectives. -/
def evaluateWithin : Nat → Evaluation N
  | 0, name, _ => .error (.endless name)
  | depth + 1, name, node =>
    match F.adjective? name with
    | none => .error (.unknownReference name)
    | some a =>
      match a.kind with
      | .comparison _ _ => .error (.requiresTwoNodes name)
      | .rank kind comparison group => do
        let value : Evaluation N := evaluateWithin depth
        let members ← (value.group group node).mapError (.dependent name (Node.label node) group)
        let holds (member : N) :=
          (F.compareBy value comparison node member).mapError
            (.dependent name (Node.label node) comparison)
        return .bool (← kind.verdict holds members)
      | _ => a.fetch node

/-- The value of an adjective on a node. -/
def evaluate : Evaluation N := F.evaluateWithin (F.adjectives.length + 1)

/-- The members of a nodes group on a node. -/
def evaluateGroup (name : String) (node : N) : Except EvaluationError (List N) := F.evaluate.group name node

/-- The value of a quantitative adjective on a node. -/
def evaluateNumber (name : String) (node : N) : Except EvaluationError Number := F.evaluate.number name node

/-- Whether `a` is `name` than `b`. -/
def compare (name : String) (a b : N) : Except EvaluationError Bool := F.compareBy F.evaluate name a b

end Framework

end Rationale
