import Mathlib.Data.List.Perm.Basic
import Rationale.Proof.Render
import Rationale.Proofs.Entries

/-!
The text of a proof drops nothing. The marks apart, a formula states what the proof says in the order in which it is
argued, and a sentence states the same with each conclusion before what supports it, which is the order in which the
nodes are met from the root down. So the texts of the claims, assumptions and failures stand in the text of the proof
one after another, whatever their own texts are.
-/

namespace Rationale

open List

/-- The texts stand in `s` one after another and apart, in this order. -/
def Contains : List String → String → Prop
  | [], _ => True
  | t :: ts, s => ∃ before after, s = before ++ t ++ after ∧ Contains ts after

namespace Contains

theorem prepend {ts : List String} {s : String} (h : Contains ts s) (front : String) : Contains ts (front ++ s) := by
  cases ts with
  | nil => trivial
  | cons t ts =>
    obtain ⟨before, after, rfl, rest⟩ := h
    exact ⟨front ++ before, after, by simp only [String.append_assoc], rest⟩

theorem cons {ts : List String} {s : String} (t : String) (h : Contains ts s) : Contains (t :: ts) (t ++ s) :=
  ⟨"", s, by rw [String.empty_append], h⟩

end Contains

/-- What a piece states; marks state nothing. -/
def Piece.stated? (mode : PrintMode) : Piece → Option String
  | .claim c => some (c.text mode)
  | .leaf t => some t
  | .mark _ => none

/-- What a run of pieces states. -/
def stated (mode : PrintMode) (run : List Piece) : List String := run.filterMap (Piece.stated? mode)

/-- What supports a conclusion goes before it in formulas, and after it in sentences. -/
def PrintMode.placed {α : Type} (mode : PrintMode) (support own : List α) : List α :=
  match mode with
  | .verbal => own ++ support
  | .logic => support ++ own

theorem PrintMode.map_placed {α β : Type} (mode : PrintMode) (f : α → β) (support own : List α) :
    (mode.placed support own).map f = mode.placed (support.map f) (own.map f) := by
  cases mode <;> exact map_append

@[simp] theorem PrintMode.placed_nil {α : Type} (mode : PrintMode) (support : List α) :
    mode.placed support [] = support := by
  cases mode
  · rfl
  · exact append_nil support

@[simp] theorem PrintMode.nil_placed {α : Type} (mode : PrintMode) (own : List α) : mode.placed [] own = own := by
  cases mode
  · exact append_nil own
  · rfl

section Stated
variable {mode : PrintMode}

theorem contains_stated (run : List Piece) : Contains (stated mode run) (String.join (run.map (·.text mode))) := by
  induction run with
  | nil => trivial
  | cons piece run ih =>
    rw [map_cons, String.join_cons]
    cases piece with
    | claim c => exact ih.cons _
    | leaf t => exact ih.cons t
    | mark t => exact ih.prepend t

@[simp] theorem stated_nil : stated mode [] = [] := rfl

@[simp] theorem stated_append (run run' : List Piece) :
    stated mode (run ++ run') = stated mode run ++ stated mode run' :=
  filterMap_append

@[simp] theorem stated_mark (t : String) (run : List Piece) : stated mode (.mark t :: run) = stated mode run := rfl

@[simp] theorem stated_claim (c : Claim) (run : List Piece) :
    stated mode (.claim c :: run) = c.text mode :: stated mode run := rfl

@[simp] theorem stated_noteMark (note : String) : stated mode [noteMark note] = [] := rfl

theorem stated_sharedMark (labels : List String) : stated mode (sharedMark labels) = [] := by
  unfold sharedMark
  split <;> rfl

theorem stated_omittedMark (n : Nat) : (omittedMark n).flatMap (stated mode) = [] := by
  unfold omittedMark
  split <;> rfl

theorem stated_joined (options : RenderOptions) (items : List (List Piece)) :
    stated mode (options.joined items) = items.flatMap (stated mode) := by
  induction items using RenderOptions.joined.induct with
  | case1 => rfl
  | case2 item => exact (append_nil _).symm
  | case3 item last => simp [RenderOptions.joined, RenderOptions.conjunction]
  | case4 item rest _ several ih => simp [RenderOptions.joined, RenderOptions.comma, ih]

theorem stated_step (options : RenderOptions) (depth : Nat) (c : Claim) (support : List Piece) :
    stated options.mode (options.step depth c support)
      = options.mode.placed (stated options.mode support) [c.text options.mode] := by
  have unmarked : stated options.mode (options.depthMark depth) = [] := by
    unfold RenderOptions.depthMark
    split <;> rfl
  rw [RenderOptions.step, stated_append, unmarked]
  cases options.mode <;> simp [PrintMode.placed]

end Stated

/-- The text of an entry. -/
def Entry.text (mode : PrintMode) : Entry → String
  | .claim c => c.text mode
  | .assumption t => t
  | .failure t => t

namespace Proof

/-! ### The pieces of a node -/

section Pieces
variable (options : RenderOptions)

theorem piecesOfMembers_eq (members : List (Member Proof)) :
    piecesOfMembers options members = members.map fun m => m.proof.pieces options ++ sharedMark m.labels := by
  induction members with
  | nil => rfl
  | cons m rest ih => rw [piecesOfMembers, ih, map_cons]

@[simp] theorem pieces_conj (items : List Proof) :
    (conj items).pieces options = options.joined (items.map (pieces options)) := by
  rw [pieces, piecesOfAll_eq]

@[simp] theorem pieces_implies (p : Proof) (c : Claim) (d : Nat) (o : Origin) :
    (implies p c d o).pieces options = options.step d c (p.pieces options) := rfl

@[simp] theorem pieces_conditional (owner : String) (c : Proof) (branch : Option Proof) :
    (conditional owner c branch).pieces options
      = options.joined (c.pieces options :: (branch.map (pieces options)).toList) := by
  cases branch <;> rfl

/-- What supports the conclusion of a comparison with a group. -/
def groupItems (membership : Option Proof) (members : List (Member Proof)) (n : Nat) : List (List Piece) :=
  (membership.map (pieces options)).toList
    ++ members.map (fun m => m.proof.pieces options ++ sharedMark m.labels) ++ omittedMark n

theorem pieces_group (c : Claim) (membership : Option Proof) (members : List (Member Proof)) (n d : Nat) (o : Origin) :
    (group c membership members n d o).pieces options
      = if (groupItems options membership members n).isEmpty then [.claim c]
        else options.step d c (options.joined (groupItems options membership members n)) := by
  rw [groupItems, ← piecesOfMembers_eq]
  cases membership <;> rfl

@[simp] theorem pieces_annotated (p : Proof) (note : String) :
    (annotated p note).pieces options = p.pieces options ++ [noteMark note] := rfl

/-- What the text of a node states is what the texts of its parts state and its own entry, in the order of the mode. -/
theorem stated_pieces (p : Proof) : stated options.mode (p.pieces options)
    = options.mode.placed (p.children.flatMap fun q => stated options.mode (q.pieces options))
        (p.own?.toList.map (Entry.text options.mode)) := by
  cases p with
  | conj items => simp [stated_joined, children, own?, flatMap_map]
  | implies p c d o => simp [stated_step, children, own?, Entry.text]
  | conditional owner c branch => cases branch <;> simp [stated_joined, children, own?]
  | group c membership members n d o =>
    -- Remarks on members and on what is left out are marks, so they count for the items but state nothing.
    have parts : (groupItems options membership members n).flatMap (stated options.mode)
        = (membership.toList ++ members.map (·.proof)).flatMap fun q => stated options.mode (q.pieces options) := by
      cases membership <;> simp [groupItems, flatMap_map, stated_sharedMark, stated_omittedMark]
    rw [pieces_group, children, ← parts]
    split
    · rename_i bare
      rw [isEmpty_iff.mp bare, flatMap_nil, PrintMode.nil_placed]
      rfl
    · rw [stated_step, stated_joined]
      rfl
  | annotated p note => simp [children, own?]
  | _ => simp [pieces, children, own?, stated, Piece.stated?, Entry.text]

end Pieces

/-- What a proof says, each conclusion before what supports it: the entries of its nodes from the root down. -/
def told (p : Proof) : List Entry := p.preorder.filterMap own?

theorem told_eq (p : Proof) : p.told = p.own?.toList ++ p.children.flatMap told := by
  rw [told, preorder_eq_children, filterMap_cons, filterMap_flatMap]
  cases p.own? <;> rfl

theorem told_perm_entries (p : Proof) : p.told ~ p.entries := by
  induction p using induct_children with
  | step p ih =>
    rw [told_eq, entries_eq]
    exact perm_append_comm.trans (Perm.append_right _ (Perm.flatMap_left _ ih))

/-- What a proof says in the order of a text: as it is argued in formulas, as it is told in sentences. -/
def inOrder (mode : PrintMode) (p : Proof) : List Entry :=
  match mode with
  | .verbal => p.told
  | .logic => p.entries

theorem inOrder_eq (mode : PrintMode) (p : Proof) :
    p.inOrder mode = mode.placed (p.children.flatMap (inOrder mode)) p.own?.toList := by
  cases mode
  · exact told_eq p
  · exact entries_eq p

/-- The text of a proof states, the marks apart, all that the proof says. -/
theorem stated_pieces_eq_inOrder (options : RenderOptions) (p : Proof) :
    stated options.mode (p.pieces options) = (p.inOrder options.mode).map (Entry.text options.mode) := by
  induction p using induct_children with
  | step p ih => rw [stated_pieces, inOrder_eq, PrintMode.map_placed, map_flatMap, flatMap_congr ih]

theorem contains_inOrder (options : RenderOptions) (p : Proof) :
    Contains ((p.inOrder options.mode).map (Entry.text options.mode)) (p.render options) := by
  rw [← stated_pieces_eq_inOrder]
  exact contains_stated _

/-- What the texts of a proof hold. -/
structure Recounted (p : Proof) (printDepth : Bool) : Prop where
  /-- A formula holds the formula of every claim and the text of every assumption and failure, as they are argued. -/
  formula : Contains (p.entries.map (Entry.text .logic)) (p.render ⟨.logic, printDepth⟩)
  /-- The claims among them are all that the proof makes, in their order. -/
  claims : p.entries.filterMap Entry.claim? = p.claims
  /-- A sentence holds the sentence of every claim and the text of every assumption and failure, as they are told. -/
  sentence : Contains (p.told.map (Entry.text .verbal)) (p.render ⟨.verbal, printDepth⟩)
  /-- What is told is what is argued, with the conclusion of each node before its parts and not after them. -/
  reordered : p.told ~ p.entries ∧ p.told = p.own?.toList ++ p.children.flatMap told ∧
    p.entries = p.children.flatMap entries ++ p.own?.toList

/-- Every text of a proof, with depth marks or without, holds all that the proof says. -/
theorem render_recounts (p : Proof) (printDepth : Bool) : p.Recounted printDepth where
  formula := contains_inOrder ⟨.logic, printDepth⟩ p
  claims := (claims_eq p).symm
  sentence := contains_inOrder ⟨.verbal, printDepth⟩ p
  reordered := ⟨told_perm_entries p, told_eq p, entries_eq p⟩

end Proof

end Rationale
