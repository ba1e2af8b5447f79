import Rationale.Expansion
import Rationale.Question

/-!
The explainer: a registry of validated frameworks that answers why adjectives of nodes have their values.
The settings of a call lie over those configured on the explainer, and these over those of the framework;
`Explainer.resolve` chooses the framework and puts the layers together.
-/

namespace Rationale

structure Explainer (N : Type) where
  /-- The frameworks by their keys, in the order of registration. -/
  frameworks : List (String × Framework N) := []
  settings : SettingsPatch := {}

inductive ExplainError
  | unknownAdjective (framework name : String)
  | unknownFramework (key : String)
  | noFramework
  | duplicateFramework (key : String)
  | noSuchGetterTarget (name : String)
  | missingComparisonTarget (adjective : String)
  | unexpectedComparisonTarget (adjective : String)
  | framework (cause : FrameworkError)
  | settings (cause : DecodeError)

def ExplainError.message : ExplainError → String
  | .unknownAdjective key name =>
    "framework \"" ++ key ++ "\" has no adjective \"" ++ name ++ "\""
  | .unknownFramework key => "unknown framework \"" ++ key ++ "\""
  | .noFramework => "no framework has been registered"
  | .duplicateFramework key => "framework \"" ++ key ++ "\" is already registered"
  | .noSuchGetterTarget name => "no registered framework has an adjective \"" ++ name ++ "\""
  | .missingComparisonTarget adjective =>
    "comparison adjective \"" ++ adjective ++ "\" needs a node to compare to"
  | .unexpectedComparisonTarget adjective =>
    "adjective \"" ++ adjective ++ "\" is not a comparison and takes no node to compare to"
  | .framework cause => cause.message
  | .settings cause => cause.inSettings

/-- A finished explanation, and how it is to be printed. -/
structure Argument where
  proof : Proof
  options : RenderOptions

def Argument.render (a : Argument) : String := a.proof.render a.options

/-! ### Explanations -/

/-- The goal of a question about an adjective and perhaps another node. Comparisons need one, and nothing
else takes one. -/
def Adjective.goal {N : Type} (a : Adjective N) (node : N) (other : Option N) :
    Except ExplainError (Goal N) :=
  match a.isComparison, other with
  | true, some other => .ok (.comparison a.name node other)
  | true, none => .error (.missingComparisonTarget a.name)
  | false, some _ => .error (.unexpectedComparisonTarget a.name)
  | false, none => .ok (.value a.name node)

namespace Framework

variable {N : Type} [Node N] (F : Framework N)

/-- The finished proof of a goal: its expansion under the tactics of the framework, in normal form. -/
def explanation (settings : Settings) (goal : Goal N) (beyond : Goal N → Proof := Goal.unresolved) : Proof :=
  (Tactic.applyAll F.tactics (F.expand settings beyond settings.explanationDepth 0 1 [] goal)).normalize

/-- Explains an adjective of a node, or how the node compares to another, under full settings. -/
def explain (settings : Settings) (node : N) (adjective : String) (other : Option N := none)
    (beyond : Goal N → Proof := Goal.unresolved) : Except ExplainError Argument := do
  let a ← match F.adjective? adjective with
    | some a => .ok a
    | none => .error (ExplainError.unknownAdjective (settings.framework.getD "") adjective)
  return ⟨F.explanation settings (← a.goal node other) beyond, settings.renderOptions⟩

end Framework

namespace Explainer

variable {N : Type} (E : Explainer N)

def framework? (key : String) : Option (Framework N) :=
  (E.frameworks.find? (·.1 == key)).map (·.2)

def keys : List String := E.frameworks.map (·.1)

/-! ### Configuration -/

/-- Registers a framework that is valid, under a new key. -/
def addFramework (key : String) (F : Framework N) : Except ExplainError (Explainer N) := do
  if (E.framework? key).isSome then throw (.duplicateFramework key)
  F.validate.mapError .framework
  return { E with frameworks := E.frameworks ++ [(key, F)] }

/-- Lays a patch over the settings configured so far. A framework it selects must be registered. -/
def configure (patch : SettingsPatch) : Except ExplainError (Explainer N) := do
  if let some key := patch.framework then
    if (E.framework? key).isNone then throw (.unknownFramework key)
  return { E with settings := E.settings.merge patch }

def configureJson (value : Json) : Except ExplainError (Explainer N) := do
  E.configure (← (SettingsPatch.ofJson value).mapError .settings)

/-- Sets the getter of an adjective in every framework that defines it. -/
def setGetter (name : String) (getter : Getter N) : Except ExplainError (Explainer N) :=
  if E.frameworks.any fun (_, F) => (F.adjective? name).isSome then
    .ok { E with frameworks := E.frameworks.map fun (key, F) =>
      match F.setGetter name getter with
      | .ok F' => (key, F')
      | .error _ => (key, F) }
  else .error (.noSuchGetterTarget name)

/-- The framework for a call with the given overrides, and its settings. -/
def resolve (overrides : SettingsPatch) : Except ExplainError (Framework N × Settings) := do
  let (key, F) ← match overrides.framework.or E.settings.framework with
    | some key =>
      match E.framework? key with
      | some F => .ok (key, F)
      | none => .error (ExplainError.unknownFramework key)
    | none =>
      match E.frameworks with
      | first :: _ => .ok first
      | [] => .error .noFramework
  let settings := (((({} : Settings).apply F.settings).apply E.settings).apply overrides)
  return (F, { settings with framework := some key })

/-! ### Answers -/

variable [Node N]

/-- Explains an adjective of a node, or how the node compares to another, under the settings with
`overrides` over them. -/
def explain (node : N) (adjective : String) (other : Option N := none) (overrides : SettingsPatch := {}) :
    Except ExplainError Argument := do
  let (F, settings) ← E.resolve overrides
  F.explain settings node adjective other

/-- Answers a free-text question about a node, if it is understood and has an answer. -/
def answer? (node : N) (question : String) : Option Argument := do
  let (F, _) ← (E.resolve {}).toOption
  let q ← Question.parse? F node question
  (E.explain node q.adjective q.other).toOption

end Explainer

end Rationale
