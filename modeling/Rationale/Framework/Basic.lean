import Rationale.Adjective
import Rationale.Settings

/-!
Frameworks: the vocabularies explanations are given in. A framework is built up by operations that fail
without effect, and that keep the names of its adjectives distinct and not empty. References between
adjectives may be broken in between; `Framework.validate` tells whether they are.
-/

namespace Rationale

/-- A vocabulary of adjectives for one audience. -/
structure Framework (N : Type) where
  /-- What nodes are called in generated text. -/
  nodeWord : String
  adjectives : List (Adjective N) := []
  /-- What is applied to every explanation, in this order. -/
  tactics : List Tactic := []
  /-- The settings below those of the explainer. -/
  settings : SettingsPatch := {}
  /-- The adjective that motivates decisions. -/
  main : Option String := none

/-- What a role needs in words. -/
def Role.describe : Role → String
  | .any => "an adjective"
  | .boolean => AdjectiveKind.boolean.describe
  | .pointer => AdjectiveKind.pointer.describe
  | .quantitative => AdjectiveKind.quantitative.describe
  | .nodesGroup => (AdjectiveKind.nodesGroup false).describe
  | .comparison => (AdjectiveKind.comparison "" .equal).describe

/-- What is wrong with a framework or with an operation on it. -/
inductive FrameworkError
  | emptyName
  | duplicateAdjective (name : String)
  | unknownAdjective (name : String)
  /-- The explanation of `adjective` names something that is not defined. -/
  | malformedExplanation (adjective reference : String)
  /-- The explanation of `adjective` uses `reference` as what it is not. -/
  | wrongKind (adjective reference : String) (expected : Role) (found : AdjectiveKind)

namespace FrameworkError

def message : FrameworkError → String
  | .emptyName => "adjective names must not be empty"
  | .duplicateAdjective name => "adjective \"" ++ name ++ "\" is already defined"
  | .unknownAdjective name => "unknown adjective \"" ++ name ++ "\""
  | .malformedExplanation adjective reference =>
    "explanation of \"" ++ adjective ++ "\" refers to unknown adjective \"" ++ reference ++ "\""
  | .wrongKind adjective reference expected found =>
    "\"" ++ adjective ++ "\" refers to \"" ++ reference ++ "\", which is " ++ found.describe
      ++ " instead of " ++ expected.describe

end FrameworkError

namespace Framework

variable {N : Type} (F : Framework N)

def adjective? (name : String) : Option (Adjective N) := F.adjectives.find? (·.name == name)

/-- The adjective with the given name, which must be defined. -/
def adjective (name : String) : Except FrameworkError (Adjective N) :=
  match F.adjective? name with
  | some a => .ok a
  | none => .error (.unknownAdjective name)

/-! ### Operations -/

def add (a : Adjective N) : Except FrameworkError (Framework N) :=
  if a.name.isEmpty then .error .emptyName
  else if (F.adjective? a.name).isSome then .error (.duplicateAdjective a.name)
  else .ok { F with adjectives := F.adjectives ++ [a] }

/-- Adds adjectives up to the first that is refused, and the reason if there is one. -/
def addAll (F : Framework N) : List (Adjective N) → Framework N × Option FrameworkError
  | [] => (F, none)
  | a :: rest =>
    match F.add a with
    | .error e => (F, some e)
    | .ok F' => F'.addAll rest

/-- Takes an adjective out and gives it back. -/
def remove (name : String) : Except FrameworkError (Adjective N × Framework N) := do
  let a ← F.adjective name
  return (a, { F with adjectives := F.adjectives.eraseP (·.name == name) })

/-- Changes the adjective with the given name in its place. -/
def modify (name : String) (change : Adjective N → Adjective N) : Except FrameworkError (Framework N) := do
  let _ ← F.adjective name
  return { F with adjectives := F.adjectives.map fun a => if a.name == name then change a else a }

/-- Gives an adjective a new name. What refers to the old one keeps doing so, except the main adjective. -/
def rename (name newName : String) : Except FrameworkError (Framework N) := do
  if newName.isEmpty then throw .emptyName
  if name ≠ newName ∧ (F.adjective? newName).isSome then throw (.duplicateAdjective newName)
  let F' ← F.modify name fun a => { a with name := newName }
  return { F' with main := if F.main = some name then some newName else F.main }

def setGetter (name : String) (getter : Getter N) : Except FrameworkError (Framework N) :=
  F.modify name fun a => { a with getter := some getter }

def addTactic (t : Tactic) : Framework N := { F with tactics := F.tactics ++ [t] }

/-- Adds a tactic that is applied when the adjective is explained. -/
def addAdjectiveTactic (name : String) (t : Tactic) : Except FrameworkError (Framework N) :=
  F.modify name fun a => { a with tactics := a.tactics ++ [t] }

end Framework

/-! ### References -/

/-- Whether an adjective of a kind can be used in a role. Ranks have truth values too. -/
def Role.admits : Role → AdjectiveKind → Bool
  | .any, _ => true
  | .boolean, .boolean => true
  | .boolean, .rank _ _ _ => true
  | .pointer, .pointer => true
  | .quantitative, .quantitative => true
  | .nodesGroup, .nodesGroup _ => true
  | .comparison, .comparison _ _ => true
  | _, _ => false

/-- The names the value of an adjective depends on. -/
def AdjectiveKind.references : AdjectiveKind → List (String × Role)
  | .comparison base _ => [(base, .quantitative)]
  | .rank _ relation group => [(relation, .comparison), (group, .nodesGroup)]
  | _ => []

/-- The names an adjective refers to, with what they are used as. -/
def Adjective.references {N : Type} (a : Adjective N) : List (String × Role) :=
  a.kind.references ++ a.template.references

namespace Framework

variable {N : Type} (F : Framework N)

/-- Checks that `owner` can use a name in a role. -/
def checkReference (owner : String) (reference : String × Role) : Except FrameworkError Unit :=
  match F.adjective? reference.1 with
  | none => .error (.malformedExplanation owner reference.1)
  | some target =>
    if reference.2.admits target.kind then .ok ()
    else .error (.wrongKind owner reference.1 reference.2 target.kind)

/-- Checks that the names in tactics are defined. -/
def checkTactics (tactics : List Tactic) : Except FrameworkError Unit :=
  tactics.forM fun t => t.references.forM fun name => discard (F.adjective name)

def checkAdjective (a : Adjective N) : Except FrameworkError Unit := do
  a.references.forM (F.checkReference a.name)
  F.checkTactics a.tactics

/-- Checks that every name that is referred to is defined, and as what it is used as. -/
def validate : Except FrameworkError Unit := do
  if let some name := F.main then discard (F.adjective name)
  F.checkTactics F.tactics
  F.adjectives.forM F.checkAdjective

end Framework

end Rationale
