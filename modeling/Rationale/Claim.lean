/-!
Claims: atomic propositions about labelled nodes. A claim carries its own truth, so a proof always states
what holds: a false proposition is stated negated.
-/

namespace Rationale

/-- How a comparison with a group speaks about its members. -/
inductive Quantifier
  | every
  | noneOf
deriving DecidableEq

/-- What a claim says of its subject. -/
inductive Predicate
  | is (adjective : String)
  | has (adjective value : String)
  | compared (adjective other : String)
  | comparedToGroup (adjective group : String) (quantifier : Quantifier)
deriving DecidableEq

structure Claim where
  subject : String
  predicate : Predicate
  negated : Bool := false
deriving DecidableEq

def Predicate.adjective : Predicate → String
  | .is adjective => adjective
  | .has adjective _ => adjective
  | .compared adjective _ => adjective
  | .comparedToGroup adjective _ _ => adjective

/-- The sentence that says `predicate` of `subject`, or denies it. -/
def Predicate.sentence (subject : String) (negated : Bool) : Predicate → String
  | .is adjective => subject ++ (if negated then " is not " else " is ") ++ adjective
  | .has adjective value =>
    subject ++ (if negated then " does not have " else " has ") ++ adjective ++ " = " ++ value
  | .compared adjective other =>
    subject ++ (if negated then " is not " else " is ") ++ adjective ++ " than " ++ other
  | .comparedToGroup adjective group .every =>
    subject ++ (if negated then " is not " else " is ") ++ adjective ++ " than every node in " ++ group
  | .comparedToGroup adjective group .noneOf =>
    subject ++ (if negated then " is " else " is not ") ++ adjective
      ++ (if negated then " than some node in " else " than any node in ") ++ group

namespace Claim

/-- The value of an adjective that was not expanded. -/
def unresolvedValue : String := "?"

/-- The placeholder for an adjective that was not expanded. -/
def unresolved (subject adjective : String) : Claim := ⟨subject, .has adjective unresolvedValue, false⟩

def isUnresolved (c : Claim) : Bool :=
  match c.predicate with
  | .has _ value => value == unresolvedValue
  | _ => false

/-- The claim, negated exactly when `truth` is false. -/
def withTruth (c : Claim) (truth : Bool) : Claim := { c with negated := !truth }

def negate (c : Claim) : Claim := { c with negated := !c.negated }

def adjective (c : Claim) : String := c.predicate.adjective

/-! ### Labels -/

def swapLabel (source target label : String) : String := if label = source then target else label

/-- The claim with the label `source` replaced by `target` wherever a whole label stands. -/
def relabel (c : Claim) (source target : String) : Claim :=
  let swap := swapLabel source target
  { c with
    subject := swap c.subject
    predicate := match c.predicate with
      | .has adjective value => .has adjective (swap value)
      | .compared adjective other => .compared adjective (swap other)
      | p => p }

/-! ### Texts -/

/-- The affirmative sentence, inside `¬(…)` when the claim is negated. -/
def logicText (c : Claim) : String :=
  let text := c.predicate.sentence c.subject false
  if c.negated then "¬(" ++ text ++ ")" else text

/-- The sentence with the negation in its words. -/
def verbalText (c : Claim) : String := c.predicate.sentence c.subject c.negated

end Claim

end Rationale
