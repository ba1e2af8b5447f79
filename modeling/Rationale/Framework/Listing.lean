import Rationale.Framework.Basic

/-!
The listing of a framework: the propositions it knows, one abstract implication for every adjective, and
its tactics. Formulas are written with `∧`, `∨` and `¬`; a conditional among the items of a conjunction
stands in parentheses.
-/

namespace Rationale.Framework

variable {N : Type} (F : Framework N)

/-- The proposition of an adjective about a subject that stands for any node. -/
def proposition (name subject : String) : String :=
  let kind : Option OriginKind := (F.adjective? name).map fun a => a.kind.origin
  match kind with
  | some .boolean => subject ++ " is " ++ name
  | some .rank => subject ++ " is " ++ name
  | some .comparison => subject ++ "1 is " ++ name ++ " than " ++ subject ++ "2"
  | _ => subject ++ " has " ++ name

/-- The test of a conditional. -/
def conditionFormula (c : Condition) : String :=
  let statement (subject : String) := match c.expected with
    | .bool true => F.proposition c.adjective subject
    | .bool false => "¬(" ++ F.proposition c.adjective subject ++ ")"
    | expected => subject ++ " has " ++ c.adjective ++ " = " ++ expected.toText
  match c.via with
  | some pointer => F.nodeWord ++ " has " ++ pointer ++ " ∧ " ++ statement pointer
  | none => statement F.nodeWord

def isBranch : Template → Bool
  | .branch _ _ _ => true
  | _ => false

mutual

/-- What a template says of any node, as the premise for its owner. -/
def premise (owner : String) : Template → String
  | .assume a => "(assumption) " ++ a.description F.nodeWord
  | .possess adjective none _ _ => F.proposition adjective F.nodeWord
  | .possess adjective (some pointer) _ forwardPointer =>
    if pointer = owner ∨ !forwardPointer then F.proposition adjective pointer
    else F.nodeWord ++ " has " ++ pointer ++ " ∧ " ++ F.proposition adjective pointer
  | .compare comparison pointer => F.nodeWord ++ " is " ++ comparison ++ " than " ++ pointer
  | .compareGroup comparison group positive =>
    if positive then F.nodeWord ++ " is " ++ comparison ++ " than every node in " ++ group
    else F.nodeWord ++ " is not " ++ comparison ++ " than any node in " ++ group
  | .compared adjective =>
    F.nodeWord ++ "1 has " ++ adjective ++ " ∧ " ++ F.nodeWord ++ "2 has " ++ adjective
  | .all items => " ∧ ".intercalate (premises owner items)
  | .branch c ifTrue ifFalse =>
    "(" ++ F.conditionFormula c ++ " ∧ " ++ premise owner ifTrue ++ ") ∨ (¬("
      ++ F.conditionFormula c ++ ") ∧ " ++ premise owner ifFalse ++ ")"
  | .recurse pointer adjective goal =>
    F.nodeWord ++ " reaches a " ++ goal ++ " " ++ F.nodeWord ++ " through " ++ pointer ++ " ∧ "
      ++ F.proposition adjective ("that " ++ F.nodeWord)

/-- The items of a conjunction. -/
def premises (owner : String) : List Template → List String
  | [] => []
  | t :: rest =>
    let text := premise owner t
    (if isBranch t then "(" ++ text ++ ")" else text) :: premises owner rest

end

/-- The lines on the tactics, those of single adjectives first. -/
def tacticLines : List String :=
  (F.adjectives.flatMap fun a => a.tactics.map fun t => "  " ++ t.name ++ " on \"" ++ a.name ++ "\"")
    ++ F.tactics.map fun t => "  " ++ t.name

/-- The lines of the listing. -/
def lines : List String :=
  "Propositions:" :: ((F.adjectives.filter (·.isPublic)).map fun a =>
      "  " ++ F.proposition a.name F.nodeWord)
    ++ "Implications:" :: (F.adjectives.map fun a =>
      "  " ++ F.premise a.name a.template ++ " → " ++ F.proposition a.name F.nodeWord)
    ++ (if F.tacticLines.isEmpty then [] else "Tactics:" :: F.tacticLines)

/-- The listing, with an end of line after every line. -/
def listing : String := String.join (F.lines.map (· ++ "\n"))

end Rationale.Framework
