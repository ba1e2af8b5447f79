import Rationale.Framework.Evaluate

/-!
Expansion: the proof of why an adjective has the value it has on a node. The asked adjective is on level 1,
and what its template refers to is one level deeper; below the last level placeholders stand for goals. A
goal that is being expanded already is cut, so a cycle of justifications ends where it closes.

`Template.fill` turns a template into a premise, given how goals below it are expanded, and
`Framework.expand` is its fixed point, level by level.
-/

namespace Rationale

variable {N : Type} [Node N]

/-! ### Goals -/

/-- What is to be explained: the value of an adjective on a node, or how a node compares to another. -/
inductive Goal (N : Type)
  | value (adjective : String) (node : N)
  | comparison (adjective : String) (node other : N)

namespace Goal

def adjective : Goal N → String
  | .value name _ => name
  | .comparison name _ _ => name

def node : Goal N → N
  | .value _ node => node
  | .comparison _ node _ => node

def other? : Goal N → Option N
  | .value _ _ => none
  | .comparison _ _ other => some other

/-- The adjective as a placeholder or a cut names it. -/
def title : Goal N → String
  | .value name _ => name
  | .comparison name _ other => name ++ " than " ++ Node.label other

/-- Whether two goals ask the same of the same nodes. -/
def same : Goal N → Goal N → Bool
  | .value name node, .value name' node' => name == name' && Node.same node node'
  | .comparison name node other, .comparison name' node' other' =>
    name == name' && Node.same node node' && Node.same other other'
  | _, _ => false

/-- The placeholder for a goal that is not expanded. -/
def unresolved (g : Goal N) : Proof := .claim (.unresolved (Node.label g.node) g.title)

end Goal

/-! ### Failures -/

/-- A branch whose adjective has no value. An error that names its chain speaks for itself. -/
def Proof.cannotEvaluate (name : String) (node : N) (e : EvaluationError) : Proof :=
  match e with
  | .dependent _ _ _ _ => .failure e.message
  | _ => .failure ("the adjective \"" ++ name ++ "\" cannot be evaluated on " ++ Node.label node ++ " ("
      ++ e.message ++ ")")

/-- A goal cut because it is being expanded already. -/
def Proof.circular (g : Goal N) : Proof :=
  .failure ("circular explanation: \"" ++ g.title ++ "\" on " ++ Node.label g.node ++ " depends on itself")

def Proof.unknownAdjective (name : String) : Proof := .failure ("unknown adjective \"" ++ name ++ "\"")

namespace Framework

variable (F : Framework N)

/-- The node a pointer points at, or the failure that says why there is none. -/
def follow (node : N) (pointer : String) : Except Proof N :=
  match F.evaluate pointer node with
  | .ok (.node target) => .ok target
  | .ok _ => .error (.failure (Node.label node ++ " has no " ++ pointer))
  | .error e => .error (.cannotEvaluate pointer node e)

/-- What holds of a goal, for the adjective it asks about. -/
def verdict (a : Adjective N) : Goal N → Except EvaluationError Claim
  | .value name node => (F.evaluate name node).map (a.claim node)
  | .comparison name node other => (F.compare name node other).map fun holds =>
    Claim.withTruth ⟨Node.label node, .compared name (Node.label other), false⟩ holds

end Framework

/-! ### Walks -/

/-- How a walk along a pointer ends. -/
inductive WalkEnd (N : Type)
  /-- At a node where the goal of the walk holds. -/
  | arrived (node : N)
  /-- At a node beyond which there is no level left. -/
  | exhausted (node : N)
  /-- At a node where the goal cannot be decided. -/
  | undecided (failure : Proof)
  /-- At a node where the pointer cannot be followed. -/
  | lost (failure : Proof)
  /-- Back at a node that was visited before. -/
  | circular (node : N)

namespace Framework

variable (F : Framework N)

/-- Follows `pointer` until `goal` holds: the hops, each from a node to the next, and the end. At each
node the goal is decided first, then a level is taken, and then the pointer is followed. -/
def walk (pointer goal : String) : Nat → List N → N → List (N × N) × WalkEnd N
  | levels, visited, node =>
    match F.evaluate goal node with
    | .error e => ([], .undecided (.cannotEvaluate goal node e))
    | .ok (.bool true) => ([], .arrived node)
    | .ok _ =>
      match levels with
      | 0 => ([], .exhausted node)
      | levels + 1 =>
        match F.follow node pointer with
        | .error failure => ([], .lost failure)
        | .ok next =>
          if visited.any (Node.same · next) then ([(node, next)], .circular next)
          else
            let (hops, ending) := walk pointer goal levels (visited ++ [next]) next
            ((node, next) :: hops, ending)

/-- The claim that a pointer points from one node to another. -/
def hopClaim (pointer : String) (hop : N × N) : Proof :=
  .claim ⟨Node.label hop.1, .has pointer (Node.label hop.2), false⟩

end Framework

/-! ### Templates on nodes -/

/-- How a goal is expanded below the level of a template: the number is how many levels are skipped. -/
abbrev Below (N : Type) := Nat → Goal N → Proof

/-- Where a template is filled in. -/
structure Site (N : Type) where
  framework : Framework N
  settings : Settings
  goal : Goal N
  level : Nat
  /-- How many levels there are below this one. -/
  levelsBelow : Nat
  below : Below N
  /-- What stands for a goal below the last level. -/
  beyond : Goal N → Proof

namespace Site

variable (s : Site N)

def node : N := s.goal.node

def owner : String := s.goal.adjective

/-- The proof of an adjective of a node on the next level. -/
def explain (adjective : String) (node : N) : Proof := s.below 0 (.value adjective node)

/-- An assumption as the settings show it, if they do. -/
def assumption (a : Assumption) : Option Proof :=
  let verbose := Proof.assumption ("(assumption) " ++ a.description s.framework.nodeWord)
  if a.implicit && !s.settings.printImplicitAssumptions then none
  else if a.necessary then some verbose
  else match s.settings.verbosity with
    | .verbose => some verbose
    | .minimal => some (.assumption "(from assumptions)")
    | .no => none
    | .ifAsked => if s.level = 1 then some verbose else none

/-- The node that a template speaks about, and why its pointer points there, if that is to be said. The
explanation of the pointer itself does not say it again. -/
def target (via : Option String) (forwardPointer : Bool) : Except Proof (List Proof × N) :=
  match via with
  | none => .ok ([], s.node)
  | some pointer => do
    let target ← s.framework.follow s.node pointer
    return (if pointer ≠ s.owner ∧ forwardPointer then [s.explain pointer s.node] else [], target)

/-- The value of an adjective on the next level, stated without explanation. -/
def statement (adjective : String) (node : N) : Proof :=
  if s.levelsBelow = 0 then s.beyond (.value adjective node)
  else match s.framework.adjective? adjective with
    | none => .unknownAdjective adjective
    | some a =>
      match s.framework.evaluate adjective node with
      | .ok value => .claim (a.claim node value)
      | .error e => .cannotEvaluate adjective node e

def possession (adjective : String) (via : Option String) (explainFurther forwardPointer : Bool) : Proof :=
  match s.target via forwardPointer with
  | .error failure => failure
  | .ok (pointed, node) =>
    .all (pointed ++ [if explainFurther then s.explain adjective node else s.statement adjective node])

/-! ### Groups -/

/-- What follows for a group from the comparisons with its members. An error leaves it open. -/
def groupConclusion (comparison group : String) (positive : Bool)
    (verdicts : List (Except EvaluationError Bool)) : Claim :=
  let subject := Node.label s.node
  if verdicts.any fun v => !v.isOk then
    .unresolved subject
      (comparison ++ " than " ++ (if positive then "every" else "any") ++ " node in " ++ group)
  else
    let holding := verdicts.countP fun
      | .ok holds => holds
      | .error _ => false
    if positive then
      Claim.withTruth ⟨subject, .comparedToGroup comparison group .every, false⟩
        (holding == verdicts.length)
    else Claim.withTruth ⟨subject, .comparedToGroup comparison group .noneOf, false⟩ (holding == 0)

/-- The value that ranks a member: that of the base of the comparison, if it has one. -/
def relevance (comparison : String) (member : N) : Option Number :=
  match s.framework.adjective? comparison with
  | none => none
  | some a =>
    match a.kind with
    | .comparison base _ => (s.framework.evaluateNumber base member).toOption
    | _ => none

def groupComparison (comparison group : String) (positive : Bool) : Proof :=
  if s.levelsBelow = 0 then s.beyond (.value group s.node)
  else match s.framework.evaluateGroup group s.node with
    | .error e => .cannotEvaluate group s.node e
    | .ok members =>
      .group (s.groupConclusion comparison group positive
          (members.map (s.framework.compare comparison s.node)))
        (if s.owner ≠ group then some (s.explain group s.node) else none)
        (members.map fun member =>
          ⟨[Node.label member], s.relevance comparison member,
            s.below 0 (.comparison comparison s.node member)⟩)
        0 (s.level + 1) ⟨comparison, .comparison⟩

/-! ### Pointer chains -/

def recursivePossession (pointer adjective goal : String) : Proof :=
  let (hops, ending) := s.framework.walk pointer goal s.levelsBelow [s.node] s.node
  let claims := hops.map (Framework.hopClaim pointer)
  match ending with
  | .arrived node => .all (claims ++ [s.below hops.length (.value adjective node)])
  | .exhausted node => .all (claims ++ [s.beyond (.value pointer node)])
  | .lost failure => .all (claims ++ [failure])
  | .undecided failure => .conj (claims ++ [failure])
  | .circular node => .conj (claims ++ [.failure ("circular explanation: " ++ Node.label node
      ++ " is reached again through " ++ pointer)])

end Site

mutual

/-- The premise that a template gives at a site, if it gives one. -/
def Template.fill (s : Site N) : Template → Option Proof
  | .assume a => s.assumption a
  | .possess adjective via explainFurther forwardPointer =>
    some (s.possession adjective via explainFurther forwardPointer)
  | .compare comparison pointer =>
    match s.framework.follow s.node pointer with
    | .error failure => some failure
    | .ok target => some (s.below 0 (.comparison comparison s.node target))
  | .compareGroup comparison group positive => some (s.groupComparison comparison group positive)
  | .compared adjective =>
    match s.goal.other? with
    | none => some (.failure ("\"" ++ adjective ++ "\" can only be compared between two nodes"))
    | some other => Proof.all? [s.explain adjective s.node, s.explain adjective other]
  | .all items => Proof.all? (Template.fillAll s items)
  | .branch c ifTrue ifFalse =>
    match s.target c.via true with
    | .error failure => some failure
    | .ok (pointed, subject) =>
      match s.framework.evaluate c.adjective subject with
      | .error e => some (.cannotEvaluate c.adjective subject e)
      | .ok value =>
        some (.conditional s.owner (.all (pointed ++ [s.explain c.adjective subject]))
          (if value.isLiteral c.expected then Template.fill s ifTrue else Template.fill s ifFalse))
  | .recurse pointer adjective goal => some (s.recursivePossession pointer adjective goal)

/-- The premises that templates give, without those that give none. -/
def Template.fillAll (s : Site N) : List Template → List Proof
  | [] => []
  | t :: rest =>
    match Template.fill s t with
    | some p => p :: Template.fillAll s rest
    | none => Template.fillAll s rest

end

/-! ### Levels -/

/-- The proof of a goal on a level, given the premise that the template of its adjective gives while a stack of goals
is being expanded. The goal comes onto the stack, and is cut if the stack asks the same already. -/
def Framework.expandGoal (F : Framework N) (level : Nat) (path : List (Goal N)) (goal : Goal N)
    (premise : Adjective N → List (Goal N) → Option Proof) : Proof :=
  match F.adjective? goal.adjective with
  | none => .unknownAdjective goal.adjective
  | some a =>
    if path.any (·.same goal) then .circular goal
    else match F.verdict a goal with
      | .error e => .cannotEvaluate goal.adjective goal.node e
      | .ok claim =>
        Tactic.applyAll a.tactics (Proof.because (premise a (path ++ [goal])) claim level ⟨a.name, a.kind.origin⟩)

/-- The proof of a goal with `levels` levels from its own on, of which the first `skipped` are not used.
`path` holds the goals that are being expanded, and `beyond` gives what stands for goals below the last
level. -/
def Framework.expand (F : Framework N) (settings : Settings) (beyond : Goal N → Proof) :
    (levels skipped level : Nat) → (path : List (Goal N)) → Goal N → Proof
  | 0, _, _, _, goal => beyond goal
  | levels + 1, skipped + 1, level, path, goal => F.expand settings beyond levels skipped level path goal
  | levels + 1, 0, level, path, goal =>
    F.expandGoal level path goal fun a path => a.template.fill
      { framework := F, settings, goal, level, levelsBelow := levels, beyond
        below := fun skipped g => F.expand settings beyond levels skipped (level + 1 + skipped) path g }

end Rationale
