import Rationale.Proofs.Layout

/-!
The arena. A tree can be built without recursion: descriptions wait on a stack with the places of their parents, the
next one is checked and put at the end of the arena, its parent is told of it, and its children go on the stack, the
last one first. What this fills in is the layout of the description, and it breaks off with the first fault in preorder.
-/

namespace Rationale

namespace TreeSpec

theorem checkNodes_append (seen : List String) (specs more : List TreeSpec) : checkNodes seen (specs ++ more)
    = checkNodes seen specs >>= fun _ => checkNodes ((specs.map (·.label)).reverse ++ seen) more := by
  induction specs generalizing seen with
  | nil => rfl
  | cons s rest ih =>
    rw [List.cons_append, checkNodes, checkNodes]
    split
    · rfl
    · split
      · rfl
      · split
        · rfl
        · rw [ih, List.map_cons, List.reverse_cons, List.append_assoc, List.singleton_append]

end TreeSpec

/-- A description on the stack, with the place of its parent and its depth. -/
structure Pending where
  spec : TreeSpec
  parent : Option Nat
  depth : Nat

namespace Arena

open TreeSpec

/-- The entry of a node none of whose children is there. -/
def entry (x : Pending) : TreeEntry where
  label := x.spec.label
  evaluation := x.spec.evaluation
  parent := x.parent
  children := []
  depth := x.depth
  score := x.spec.evaluation.getD (Number.zero false)
  scoreChild := none

/-- The entries when the parent is told of its next children. -/
def adopt (entries : List TreeEntry) (parent : Option Nat) (children : List Nat) : List TreeEntry :=
  match parent with
  | none => entries
  | some p => entries.modify p fun e => { e with children := e.children ++ children }

/-- The stack with the children of the node at a place on it. -/
def push (place : Nat) (x : Pending) (stack : List Pending) : List Pending :=
  x.spec.children.reverse.foldl (fun stack c => ⟨c, some place, x.depth + 1⟩ :: stack) stack

theorem push_eq (place : Nat) (x : Pending) (stack : List Pending) :
    push place x stack = x.spec.children.map (⟨·, some place, x.depth + 1⟩) ++ stack := by
  rw [push, List.foldl_reverse]
  induction x.spec.children with
  | nil => rfl
  | cons c rest ih => rw [List.foldr_cons, ih, List.map_cons, List.cons_append]

/-- The nodes of the descriptions on a stack. -/
def nodes (stack : List Pending) : List TreeSpec := preorderOfAll (stack.map (·.spec))

theorem length_nodes_push (place : Nat) (x : Pending) (stack : List Pending) :
    (nodes (push place x stack)).length < (nodes (x :: stack)).length := by
  have specs : (push place x stack).map (·.spec) = x.spec.children ++ stack.map (·.spec) := by
    rw [push_eq, List.map_append, List.map_map]
    exact congrArg (· ++ _) (List.map_id _)
  rw [nodes, nodes, specs, List.map_cons, length_preorderOfAll_cons, size_eq, preorderOfAll_eq, List.flatMap_append,
    List.length_append, ← preorderOfAll_eq, ← preorderOfAll_eq]
  omega

/-- Fills the arena from a stack, when the labels `seen` are taken. -/
def fill (entries : List TreeEntry) (seen : List String) : List Pending → Except TreeError (List TreeEntry)
  | [] => .ok entries
  | x :: stack =>
    if x.spec.label.isEmpty then .error .emptyLabel
    else if seen.contains x.spec.label then .error (.duplicateLabel x.spec.label)
    else if x.spec.children.isEmpty && x.spec.evaluation.isNone then .error (.missingEvaluation x.spec.label)
    else fill (adopt (entries ++ [entry x]) x.parent [entries.length]) (x.spec.label :: seen)
      (push entries.length x stack)
termination_by stack => (nodes stack).length
decreasing_by exact length_nodes_push entries.length x stack

section Adopt
variable (entries : List TreeEntry) (parent : Option Nat)

@[simp] theorem length_adopt (children : List Nat) : (adopt entries parent children).length = entries.length := by
  cases parent with
  | none => rfl
  | some p => rw [adopt, List.length_modify]

@[simp] theorem adopt_nil : adopt entries parent [] = entries := by
  cases parent with
  | none => rfl
  | some p =>
    rw [adopt]
    simp only [List.append_nil]
    exact List.modify_id p entries

theorem adopt_adopt (children more : List Nat) :
    adopt (adopt entries parent children) parent more = adopt entries parent (children ++ more) := by
  cases parent with
  | none => rfl
  | some p =>
    rw [adopt, adopt, adopt, List.modify_modify_eq]
    congr 1
    funext e
    simp only [Function.comp, List.append_assoc]

theorem adopt_append {entries : List TreeEntry} {parent : Option Nat} (there : ∀ p ∈ parent, p < entries.length)
    (more : List TreeEntry) (children : List Nat) :
    adopt (entries ++ more) parent children = adopt entries parent children ++ more := by
  cases parent with
  | none => rfl
  | some p =>
    have hp := there p rfl
    rw [adopt, adopt, List.modify_eq_take_drop, List.modify_eq_take_drop, List.take_append_of_le_length (Nat.le_of_lt hp),
      List.drop_append_of_le_length (Nat.le_of_lt hp), List.append_assoc, List.drop_eq_getElem_cons hp]
    rfl

theorem adopt_last (e : TreeEntry) (children : List Nat) : adopt (entries ++ [e]) (some entries.length) children
    = entries ++ [{ e with children := e.children ++ children }] := by
  exact List.modifyTailIdx_add _ 0 entries [e]

end Adopt

/-- The arena filled with a node and all below it, before the rest of the stack. -/
theorem fill_spec (s : TreeSpec) (entries : List TreeEntry) (seen : List String) {parent : Option Nat}
    (there : ∀ p ∈ parent, p < entries.length) (depth : Nat) (stack : List Pending) :
    fill entries seen (⟨s, parent, depth⟩ :: stack) = checkNodes seen s.preorder >>= fun _ =>
      fill (adopt entries parent [entries.length] ++ s.lay parent depth entries.length)
        ((s.preorder.map (·.label)).reverse ++ seen) stack := by
  induction s generalizing entries seen parent depth stack with
  | node label evaluation children ih =>
    -- Siblings on the stack are added one after the other, each with all below it.
    have siblings : ∀ specs ⊆ children, ∀ (entries : List TreeEntry) (seen : List String) (p depth : Nat),
        p < entries.length → fill entries seen (specs.map (⟨·, some p, depth⟩) ++ stack)
          = checkNodes seen (preorderOfAll specs) >>= fun _ =>
            fill (adopt entries (some p) (places entries.length specs) ++ layAll (some p) depth entries.length specs)
              (((preorderOfAll specs).map (·.label)).reverse ++ seen) stack := by
      intro specs hsub
      induction specs with
      | nil =>
        intro entries seen p depth _
        rw [places, layAll, adopt_nil, List.append_nil]
        rfl
      | cons c rest ihrest =>
        intro entries seen p depth hp
        obtain ⟨hc, hrest⟩ := List.cons_subset.mp hsub
        have there : ∀ q ∈ some p, q < entries.length := by
          intro q hq
          cases hq
          exact hp
        have hlength : (adopt entries (some p) [entries.length] ++ c.lay (some p) depth entries.length).length
            = entries.length + c.size := by rw [List.length_append, length_adopt, length_lay]
        rw [List.map_cons, List.cons_append, ih c hc entries seen there, preorderOfAll, checkNodes_append, bind_assoc]
        refine bind_congr fun _ => ?_
        rw [ihrest hrest _ _ p depth (by rw [hlength]; omega), hlength,
          adopt_append (by rw [length_adopt]; exact there), adopt_adopt, List.append_assoc, List.map_append,
          List.reverse_append, List.append_assoc]
        rfl
    rw [preorder, fill, checkNodes]
    split
    · rfl
    · split
      · rfl
      · split
        · rfl
        · have there' : ∀ p ∈ parent, p < (entries ++ [entry ⟨⟨label, evaluation, children⟩, parent, depth⟩]).length := by
            intro p hp
            rw [List.length_append]
            exact Nat.lt_add_right _ (there p hp)
          have hlast : entries.length < (adopt (entries ++ [entry ⟨⟨label, evaluation, children⟩, parent, depth⟩]) parent
              [entries.length]).length := by
            rw [length_adopt, List.length_append]
            exact Nat.lt_succ_self _
          rw [push_eq, siblings children (List.Subset.refl _) _ _ _ _ hlast]
          refine bind_congr fun _ => ?_
          have hadopted := adopt_last (adopt entries parent [entries.length])
            (entry ⟨⟨label, evaluation, children⟩, parent, depth⟩) (places (entries.length + 1) children)
          rw [length_adopt] at hadopted
          rw [length_adopt, adopt_append there, List.length_append, List.length_singleton, hadopted, lay_eq,
            List.append_assoc, List.map_cons, List.reverse_cons, List.append_assoc]
          rfl

end Arena

/-- The tree that is built from a stack. -/
def GameTree.build (s : TreeSpec) : Except TreeError GameTree := do
  let entries := (← Arena.fill [] [] [⟨s, none, 0⟩]).toArray
  return ⟨sweep entries entries.size⟩

theorem GameTree.build_eq_ofSpec (s : TreeSpec) : build s = ofSpec s := by
  rw [build, Arena.fill_spec s [] [] (fun _ h => by cases h), ofSpec, TreeSpec.check, bind_assoc]
  refine bind_congr fun _ => ?_
  rw [Arena.fill]
  rfl

end Rationale
