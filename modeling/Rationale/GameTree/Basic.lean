import Rationale.GameTree.Spec
import Rationale.Value

/-!
Game trees. The nodes of a description are laid out in preorder, so every node stands after its parent,
and one sweep from the last node to the first finds the minimax scores: when it comes to a node, the
scores of the children are final. The maximizing player moves at the root and at every even depth, and
the first of equally good children is taken.
-/

namespace Rationale

/-- A node of a laid out tree; relatives are given by their places in the layout. -/
structure TreeEntry where
  label : String
  evaluation : Option Number
  parent : Option Nat
  children : List Nat
  depth : Nat
  score : Number
  scoreChild : Option Nat

structure GameTree where
  entries : Array TreeEntry

/-! ### Layout -/

namespace TreeSpec

/-- The places of descriptions laid out one after the other from `start`. -/
def places (start : Nat) : List TreeSpec → List Nat
  | [] => []
  | s :: rest => start :: places (start + s.size) rest

mutual

/-- The entries of a description laid out from place `start`, before scores are known. -/
def lay (parent : Option Nat) (depth start : Nat) : TreeSpec → List TreeEntry
  | ⟨label, evaluation, children⟩ =>
    { label, evaluation, parent, depth
      children := places (start + 1) children
      score := evaluation.getD (Number.zero false)
      scoreChild := none } :: layAll (some start) (depth + 1) (start + 1) children

def layAll (parent : Option Nat) (depth start : Nat) : List TreeSpec → List TreeEntry
  | [] => []
  | s :: rest => s.lay parent depth start ++ layAll parent depth (start + s.size) rest

end

end TreeSpec

/-! ### Scores -/

/-- Whether the player to move likes `score` better than `current`. -/
def improves (maximizing : Bool) (score current : Number) : Bool :=
  if maximizing then current.lt score else score.lt current

/-- The child the player to move chooses: the first, until a later one improves on it. -/
def favourite {α : Type} (maximizing : Bool) (children : List (α × Number)) : Option (α × Number) :=
  children.foldl (fun best child =>
    match best with
    | none => some child
    | some current => if improves maximizing child.2 current.2 then some child else best) none

namespace GameTree

/-- The entries with the score of place `i` taken over from the child its player chooses. -/
def settle (entries : Array TreeEntry) (i : Nat) : Array TreeEntry :=
  match entries[i]? with
  | none => entries
  | some e =>
    let children := e.children.filterMap fun c => (entries[c]?).map fun child => (c, child.score)
    match favourite (e.depth % 2 == 0) children with
    | none => entries
    | some (child, score) => entries.setIfInBounds i { e with score, scoreChild := some child }

/-- The entries after the first `n` places were settled, the last of them first. -/
def sweep (entries : Array TreeEntry) : Nat → Array TreeEntry
  | 0 => entries
  | n + 1 => sweep (settle entries n) n

/-- The tree of a description without faults. -/
def ofSpec (s : TreeSpec) : Except TreeError GameTree := do
  s.check
  let entries := (s.lay none 0 0).toArray
  return ⟨sweep entries entries.size⟩

def size (t : GameTree) : Nat := t.entries.size

end GameTree

/-! ### Nodes -/

/-- A node of a tree: a place in its layout. -/
structure TreeNode (t : GameTree) where
  place : Fin t.entries.size

namespace GameTree

variable (t : GameTree)

def node? (i : Nat) : Option (TreeNode t) := if h : i < t.entries.size then some ⟨⟨i, h⟩⟩ else none

def root? : Option (TreeNode t) := t.node? 0

/-- All nodes, parents before children. -/
def nodes : List (TreeNode t) := (List.finRange t.entries.size).map TreeNode.mk

def find? (label : String) : Option (TreeNode t) :=
  t.nodes.find? fun n => t.entries[n.place].label == label

end GameTree

namespace TreeNode

variable {t : GameTree} (n : TreeNode t)

def entry : TreeEntry := t.entries[n.place]

def label : String := n.entry.label

/-- The distance from the root. -/
def depth : Nat := n.entry.depth

def parent? : Option (TreeNode t) := n.entry.parent.bind t.node?

def children : List (TreeNode t) := n.entry.children.filterMap t.node?

def isLeaf : Bool := n.entry.children.isEmpty

/-- Whether the maximizing player chooses among the children. -/
def isMaximizing : Bool := n.depth % 2 == 0

/-- The static evaluation of a leaf, and the score of the chosen child of any other node. -/
def score : Number := n.entry.score

/-- The child whose score the node has. -/
def scoreChild? : Option (TreeNode t) := n.entry.scoreChild.bind t.node?

instance : Node (TreeNode t) where
  label := label
  same a b := a.place == b.place

/-- The description of the tree below a node, at most `depth` levels deep. -/
def specWithin : Nat → TreeNode t → TreeSpec
  | 0, n => ⟨n.label, n.entry.evaluation, []⟩
  | depth + 1, n => ⟨n.label, n.entry.evaluation, n.children.map (specWithin depth)⟩

end TreeNode

/-- The description of a tree. No branch is longer than the tree has nodes. -/
def GameTree.toSpec? (t : GameTree) : Option TreeSpec := t.root?.map (TreeNode.specWithin t.size)

end Rationale
