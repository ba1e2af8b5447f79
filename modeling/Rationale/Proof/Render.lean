import Rationale.Proof.Basic

/-!
Proofs as text, in one of two grammars: formulas (`[A ∧ B → ¬(C)]`) and sentences (`C (because A and B)`).
A proof is first laid out as a run of pieces, each the text of one claim, the text of one assumption or
failure, or a mark between them; the text is the run read off. So what a text states, and in which order,
is what its pieces state.
-/

namespace Rationale

inductive PrintMode
  | verbal
  | logic
deriving DecidableEq

def PrintMode.name : PrintMode → String
  | .verbal => "verbal"
  | .logic => "logic"

structure RenderOptions where
  mode : PrintMode
  /-- Whether every conclusion is preceded by the level it was drawn on. -/
  printDepth : Bool

/-- A part of the text of a proof. -/
inductive Piece
  | claim (c : Claim)
  | leaf (text : String)
  | mark (text : String)

def Claim.text (c : Claim) : PrintMode → String
  | .verbal => c.verbalText
  | .logic => c.logicText

def Piece.text (mode : PrintMode) : Piece → String
  | .claim c => c.text mode
  | .leaf t => t
  | .mark t => t

namespace RenderOptions

variable (options : RenderOptions)

/-- The mark between two items that others follow. -/
def comma : Piece :=
  .mark (match options.mode with
    | .verbal => ", "
    | .logic => " ∧ ")

/-- The mark before the last item. -/
def conjunction : Piece :=
  .mark (match options.mode with
    | .verbal => " and "
    | .logic => " ∧ ")

/-- The items with the marks between them. -/
def joined : List (List Piece) → List Piece
  | [] => []
  | [item] => item
  | [item, last] => item ++ options.conjunction :: last
  | item :: rest => item ++ options.comma :: joined rest

/-- The mark of a level. -/
def depthMark (depth : Nat) : List Piece :=
  if options.printDepth then
    [.mark (match options.mode with
      | .verbal => "(depth " ++ toString depth ++ ") "
      | .logic => "⟨" ++ toString depth ++ "⟩")]
  else []

/-- A conclusion and what supports it. -/
def step (depth : Nat) (conclusion : Claim) (support : List Piece) : List Piece :=
  options.depthMark depth ++ match options.mode with
    | .verbal => .claim conclusion :: .mark " (because " :: support ++ [.mark ")"]
    | .logic => .mark "[" :: support ++ [.mark " → ", .claim conclusion, .mark "]"]

end RenderOptions

/-- A remark in parentheses after a proof. -/
def noteMark (note : String) : Piece := .mark (" (" ++ note ++ ")")

/-- The remark on the further members that a member stands for. -/
def sharedMark : List String → List Piece
  | _ :: other :: rest => [noteMark ("same for " ++ ", ".intercalate (other :: rest))]
  | _ => []

/-- The item that accounts for comparisons left out. -/
def omittedMark : Nat → List (List Piece)
  | 0 => []
  | 1 => [[.mark "(1 other comparison omitted)"]]
  | n => [[.mark ("(" ++ toString n ++ " other comparisons omitted)")]]

namespace Proof

mutual

def pieces (options : RenderOptions) : Proof → List Piece
  | .claim c => [.claim c]
  | .assumption t => [.leaf t]
  | .failure t => [.leaf t]
  | .conj items => options.joined (piecesOfAll options items)
  | .implies p c depth _ => options.step depth c (p.pieces options)
  | .conditional _ c branch =>
    options.joined (c.pieces options :: match branch with
      | none => []
      | some p => [p.pieces options])
  | .group c membership members omitted depth _ =>
    let items := (match membership with
      | none => []
      | some p => [p.pieces options]) ++ piecesOfMembers options members ++ omittedMark omitted
    if items.isEmpty then [.claim c] else options.step depth c (options.joined items)
  | .annotated p note => p.pieces options ++ [noteMark note]

def piecesOfAll (options : RenderOptions) : List Proof → List (List Piece)
  | [] => []
  | p :: rest => p.pieces options :: piecesOfAll options rest

def piecesOfMembers (options : RenderOptions) : List (Member Proof) → List (List Piece)
  | [] => []
  | ⟨labels, _, p⟩ :: rest =>
    (p.pieces options ++ sharedMark labels) :: piecesOfMembers options rest

end

/-- The text of a proof. -/
def render (options : RenderOptions) (p : Proof) : String :=
  String.join ((p.pieces options).map (·.text options.mode))

theorem piecesOfAll_eq (options : RenderOptions) (items : List Proof) :
    piecesOfAll options items = items.map (pieces options) := by
  induction items with
  | nil => rfl
  | cons p rest ih => simp [piecesOfAll, ih]

end Proof

end Rationale
