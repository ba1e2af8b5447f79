import Rationale.Explainer
import Rationale.GameTree.Basic

/-!
Two ready-made frameworks that explain minimax decisions. `lowlevel` speaks of nodes, scores and
back-propagation and shows every assumption; `highlevel` speaks of moves, hides numbers behind a phrase,
and answers in sentences.
-/

namespace Rationale.Minimax

variable {t : GameTree}

/-! ### Getters -/

def isLeaf : Getter (TreeNode t) := fun n => .ok (.bool n.isLeaf)

def score : Getter (TreeNode t) := fun n => .ok (.number n.score)

def opponentTurn : Getter (TreeNode t) := fun n => .ok (.bool !n.isMaximizing)

def scoreChild : Getter (TreeNode t) := fun n =>
  match n.scoreChild? with
  | some child => .ok (.node child)
  | none => .ok .nothing

/-- The children of the parent of a node. The root has no siblings. -/
def siblings : Getter (TreeNode t) := fun n =>
  match n.parent? with
  | some parent => .ok (.nodes parent.children)
  | none => .error ⟨n.label ++ " has no parent"⟩

def holds (adjective : String) : Condition := ⟨adjective, none, .bool true⟩

def possessVia (pointer adjective : String) : Template := .possess adjective (some pointer) true true

/-! ### Frameworks -/

/-- For readers who know minimax. -/
def lowlevel : Framework (TreeNode t) where
  nodeWord := "node"
  main := some "best"
  settings := {
    explanationDepth := some 3
    printImplicitAssumptions := some true
    verbosity := some .verbose
    printMode := some .logic }
  adjectives := [
    { name := "leaf", kind := .boolean, getter := some isLeaf, definition := some "node.is_leaf" },
    { name := "score", kind := .quantitative, getter := some score, definition := some "node.score"
      explanation := some (.branch (holds "leaf")
        (.assume (.stated "Leaf nodes have scores from the evaluation function"))
        (.all [
          .assume (.stated "Internal nodes have scores from children"),
          possessVia "backpropagating child" "score"])) },
    { name := "opponent player turn", kind := .boolean, getter := some opponentTurn
      definition := some "not node.maximizing_player_turn" },
    { name := "backpropagating child", kind := .pointer, getter := some scoreChild
      definition := some "node.score_child"
      explanation := some (.branch (holds "opponent player turn")
        (.all [
          .assume (.stated "We assume the opponent will do their best move."),
          possessVia "backpropagating child" "worst"])
        (.all [
          .assume (.stated "On our turn we take the maximum rated move."),
          possessVia "backpropagating child" "best"])) },
    { name := "better", kind := .comparison "score" .greater },
    { name := "siblings", kind := .nodesGroup true, getter := some siblings
      definition := some "node.parent.children" },
    { name := "best", kind := .rank .max "better" "siblings" },
    { name := "worst", kind := .rank .min "better" "siblings" }]

/-- For readers who know the game only. -/
def highlevel : Framework (TreeNode t) where
  nodeWord := "move"
  main := some "the best"
  settings := {
    explanationDepth := some 4
    printImplicitAssumptions := some false
    verbosity := some .ifAsked
    printMode := some .verbal }
  tactics := [.substituteQuantitative "it leads to a better position", .skipCondition ["score"]]
  adjectives := [
    { name := "final move", kind := .boolean, getter := some isLeaf
      definition := some "no move follows it" },
    { name := "score", kind := .quantitative, getter := some score
      explanation := some (.branch (holds "final move")
        (.assume (.stated "final moves are scored by looking at the board"))
        (.all [
          .assume (.stated "We assume us and the opponent are playing optimally."),
          possessVia "next possible move" "score"])) },
    { name := "opponent player turn", kind := .boolean, getter := some opponentTurn },
    { name := "next possible move", kind := .pointer, getter := some scoreChild
      explanation := some (.branch (holds "opponent player turn")
        (.all [
          .assume (.stated "We assume the opponent will do their best move."),
          possessVia "next possible move" "the best the opponent can do"])
        (.all [
          .assume (.stated "On my turn I take the best move."),
          possessVia "next possible move" "the best"])) },
    { name := "better", kind := .comparison "score" .greater },
    { name := "possible alternative moves", kind := .nodesGroup true, getter := some siblings },
    { name := "the best", kind := .rank .max "better" "possible alternative moves"
      tactics := [.onlyRelevant (.top 1)] },
    { name := "the best the opponent can do"
      kind := .rank .min "better" "possible alternative moves" }]

def highlevelKey : String := "highlevel"

def lowlevelKey : String := "lowlevel"

/-- The explainer with both frameworks; `highlevel` is used unless the settings select the other. -/
def explainer : Except ExplainError (Explainer (TreeNode t)) := do
  (← ({} : Explainer (TreeNode t)).addFramework highlevelKey highlevel).addFramework lowlevelKey lowlevel

end Rationale.Minimax
