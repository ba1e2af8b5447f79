import Rationale.Proofs.Sweep

/-!
The sweep finds the minimax scores. They are described by a recursion on descriptions that knows of no places: a leaf
has its evaluation, and any other node has the score of the child on which its player ends who goes through the
children from left to right. Where every evaluation is a number, that is the first of the best children.
-/

namespace Rationale

namespace Number

variable {x y : Number} (hx : x.isNaN = false) (hy : y.isNaN = false)

include hx hy

theorem lt_iff : x.lt y = true ↔ x.line < y.line := by
  simp [lt, hx, hy]

theorem le_iff : x.le y = true ↔ x.line ≤ y.line := by
  simp [le, lt, eq, hx, hy, Int.le_iff_lt_or_eq]

end Number

namespace TreeSpec

/-- Strictly better for the player to move at a depth: greater at even depths, smaller at odd ones. -/
def better (depth : Nat) (x y : Number) : Bool := if depth % 2 = 0 then y.lt x else x.lt y

/-- At least as good for the player to move at a depth. -/
def atLeast (depth : Nat) (x y : Number) : Bool := if depth % 2 = 0 then y.le x else x.le y

/-- Where a player ends who goes through scores from left to right and leaves a choice only for a strictly better
score. A choice is a score with its number in the list; `next` is the number of the first score. -/
def prefer (depth : Nat) (best : Nat × Number) (next : Nat) : List Number → Nat × Number
  | [] => best
  | x :: rest => prefer depth (if better depth x best.2 then (next, x) else best) (next + 1) rest

/-- The score a player chooses, with its number, if there is any score. -/
def choice? (depth : Nat) : List Number → Option (Nat × Number)
  | [] => none
  | x :: rest => some (prefer depth (0, x) 1 rest)

mutual

/-- The minimax score of a description whose first node has the depth `depth`. -/
def minimax (depth : Nat) : TreeSpec → Number
  | ⟨_, evaluation, children⟩ =>
    match choice? depth (minimaxOfAll (depth + 1) children) with
    | some (_, score) => score
    | none => evaluation.getD (Number.zero false)

def minimaxOfAll (depth : Nat) : List TreeSpec → List Number
  | [] => []
  | s :: rest => s.minimax depth :: minimaxOfAll depth rest

end

/-- The number of the child that the score comes from. -/
def chosen? (depth : Nat) (s : TreeSpec) : Option Nat :=
  (choice? depth (s.children.map (minimax (depth + 1)))).map (·.1)

theorem minimaxOfAll_eq (depth : Nat) (specs : List TreeSpec) :
    minimaxOfAll depth specs = specs.map (minimax depth) := by
  induction specs with
  | nil => rfl
  | cons s rest ih => rw [minimaxOfAll, ih, List.map_cons]

theorem minimax_eq (depth : Nat) (s : TreeSpec) : s.minimax depth
    = ((choice? depth (s.children.map (minimax (depth + 1)))).map (·.2)).getD
        (s.evaluation.getD (Number.zero false)) := by
  obtain ⟨label, evaluation, children⟩ := s
  rw [minimax, minimaxOfAll_eq]
  dsimp only
  split
  · rename_i h
    rw [h]
    rfl
  · rename_i h
    rw [h]
    rfl

/-! ### Choices -/

theorem getElem?_of_drop {α : Type} {xs rest : List α} {x : α} {n : Nat} (h : xs.drop n = x :: rest) :
    xs[n]? = some x ∧ xs.drop (n + 1) = rest := by
  constructor
  · rw [← Nat.add_zero n, ← List.getElem?_drop, h]
    rfl
  · rw [← List.drop_drop, h, List.drop_one, List.tail_cons]

theorem getElem?_prefer {depth : Nat} {xs rest : List Number} {best : Nat × Number} {next : Nat}
    (hbest : xs[best.1]? = some best.2) (hrest : xs.drop next = rest) :
    xs[(prefer depth best next rest).1]? = some (prefer depth best next rest).2 := by
  induction rest generalizing best next with
  | nil => exact hbest
  | cons x rest ih =>
    obtain ⟨hx, htail⟩ := getElem?_of_drop hrest
    rw [prefer]
    refine ih ?_ htail
    split
    · exact hx
    · exact hbest

theorem getElem?_choice {depth : Nat} {xs : List Number} {c : Nat × Number} (h : choice? depth xs = some c) :
    xs[c.1]? = some c.2 := by
  cases xs with
  | nil => cases h
  | cons x rest =>
    cases h
    exact getElem?_prefer rfl rfl

theorem choice?_eq_none {depth : Nat} {xs : List Number} (h : choice? depth xs = none) : xs = [] := by
  cases xs with
  | nil => rfl
  | cons x rest => cases h

/-- What a score is worth to the player to move at a depth. -/
def gain (depth : Nat) (x : Number) : Int := if depth % 2 = 0 then x.line else -x.line

section Gain
variable {depth : Nat} {x y : Number} (hx : x.isNaN = false) (hy : y.isNaN = false)

include hx hy

theorem better_iff : better depth x y = true ↔ gain depth y < gain depth x := by
  unfold better gain
  split
  · exact Number.lt_iff hy hx
  · rw [Number.lt_iff hx hy]
    omega

theorem atLeast_iff : atLeast depth x y = true ↔ gain depth y ≤ gain depth x := by
  unfold atLeast gain
  split
  · exact Number.le_iff hy hx
  · rw [Number.le_iff hx hy]
    omega

end Gain

/-- A choice among the first scores: at least as good as each of them, and better than those before it. -/
structure Leads (depth : Nat) (xs : List Number) (next : Nat) (best : Nat × Number) : Prop where
  chosen : xs[best.1]? = some best.2
  good : ∀ j < next, ∀ y, xs[j]? = some y → atLeast depth best.2 y = true
  first : ∀ j < best.1, ∀ y, xs[j]? = some y → better depth best.2 y = true

section Leads
variable {depth : Nat} {xs : List Number} (numbers : ∀ x ∈ xs, x.isNaN = false)

include numbers

theorem Leads.step {next : Nat} {best : Nat × Number} (h : Leads depth xs next best) {x : Number}
    (hx : xs[next]? = some x) :
    Leads depth xs (next + 1) (if better depth x best.2 then (next, x) else best) := by
  have number {i : Nat} {y : Number} (hy : xs[i]? = some y) : y.isNaN = false := numbers y (List.mem_of_getElem? hy)
  have nx := number hx
  have nb := number h.chosen
  split
  · rename_i hbetter
    rw [better_iff nx nb] at hbetter
    -- What is better than the best so far is better than all before it.
    have beaten : ∀ j < next, ∀ y, xs[j]? = some y → gain depth y < gain depth x := by
      intro j hj y hy
      have hgood := (atLeast_iff nb (number hy)).mp (h.good j hj y hy)
      omega
    refine ⟨hx, fun j hj y hy => ?_, fun j hj y hy => (better_iff nx (number hy)).mpr (beaten j hj y hy)⟩
    rw [atLeast_iff nx (number hy)]
    rcases Nat.lt_succ_iff_lt_or_eq.mp hj with hj | rfl
    · exact Int.le_of_lt (beaten j hj y hy)
    · cases hx.symm.trans hy
      exact Int.le_refl _
  · rename_i hbetter
    rw [better_iff nx nb, Int.not_lt] at hbetter
    refine ⟨h.chosen, fun j hj y hy => ?_, h.first⟩
    rcases Nat.lt_succ_iff_lt_or_eq.mp hj with hj | rfl
    · exact h.good j hj y hy
    · cases hx.symm.trans hy
      exact (atLeast_iff nb nx).mpr hbetter

theorem Leads.prefer {rest : List Number} {next : Nat} {best : Nat × Number} (h : Leads depth xs next best)
    (hrest : xs.drop next = rest) : Leads depth xs xs.length (TreeSpec.prefer depth best next rest) := by
  induction rest generalizing next best with
  | nil =>
    refine ⟨h.chosen, fun j hj => h.good j ?_, h.first⟩
    exact Nat.lt_of_lt_of_le hj (List.drop_eq_nil_iff.mp hrest)
  | cons x rest ih =>
    obtain ⟨hx, htail⟩ := getElem?_of_drop hrest
    exact ih (h.step numbers hx) htail

/-- Among numbers the choice is the first of the best scores. -/
theorem Leads.choice {c : Nat × Number} (h : choice? depth xs = some c) : Leads depth xs xs.length c := by
  cases xs with
  | nil => cases h
  | cons x rest =>
    cases h
    have number := numbers x List.mem_cons_self
    have start : Leads depth (x :: rest) 1 (0, x) := by
      refine ⟨rfl, fun j hj y hy => ?_, fun j hj => absurd hj (Nat.not_lt_zero j)⟩
      obtain rfl : j = 0 := by omega
      cases hy
      exact (atLeast_iff number number).mpr (Int.le_refl _)
    exact start.prefer numbers rfl

end Leads

/-- Every leaf of the description is evaluated by a number. -/
def Numeric (s : TreeSpec) : Prop :=
  ∀ leaf ∈ s.preorder, leaf.children = [] → ∀ x, leaf.evaluation = some x → x.isNaN = false

theorem Numeric.child {s c : TreeSpec} (h : s.Numeric) (hc : c ∈ s.children) : c.Numeric := by
  intro leaf hleaf
  refine h leaf ?_
  obtain ⟨label, evaluation, children⟩ := s
  rw [preorder, preorderOfAll_eq]
  exact List.mem_cons_of_mem _ (List.mem_flatMap.mpr ⟨c, hc, hleaf⟩)

theorem Numeric.minimax {s : TreeSpec} (h : s.Numeric) (depth : Nat) : (s.minimax depth).isNaN = false := by
  induction s generalizing depth with
  | node label evaluation children ih =>
    rw [minimax_eq]
    dsimp only
    cases hchoice : choice? depth (children.map (TreeSpec.minimax (depth + 1))) with
    | none =>
      have hchildren := List.map_eq_nil_iff.mp (choice?_eq_none hchoice)
      cases evaluation with
      | none => rfl
      | some x => exact h _ (by rw [preorder]; exact List.mem_cons_self) hchildren x rfl
    | some c =>
      obtain ⟨child, hchild, hc⟩ := List.mem_map.mp (List.mem_of_getElem? (getElem?_choice hchoice))
      rw [Option.map_some, Option.getD_some, ← hc]
      exact ih child hchild (h.child hchild) (depth + 1)

end TreeSpec

/-! ### Paths -/

namespace TreeSpec

/-- The description that numbers of children lead down to. -/
def at? : List Nat → TreeSpec → Option TreeSpec
  | [], s => some s
  | i :: path, s => s.children[i]?.bind (at? path)

theorem mem_preorder_self (s : TreeSpec) : s ∈ s.preorder := by
  obtain ⟨label, evaluation, children⟩ := s
  rw [preorder]
  exact List.mem_cons_self

theorem child_mem_preorder {root s c : TreeSpec} (hs : s ∈ root.preorder) (hc : c ∈ s.children) :
    c ∈ root.preorder := by
  induction root with
  | node label evaluation children ih =>
    rw [preorder, preorderOfAll_eq, List.mem_cons] at *
    refine Or.inr (List.mem_flatMap.mpr ?_)
    rcases hs with rfl | hs
    · exact ⟨c, hc, c.mem_preorder_self⟩
    · obtain ⟨s', hs', hs⟩ := List.mem_flatMap.mp hs
      exact ⟨s', hs', ih s' hs' hs⟩

theorem Stands.mem_preorder {root s : TreeSpec} {place depth : Nat} {parent : Option Nat}
    (h : root.Stands place parent depth s) : s ∈ root.preorder := by
  induction h with
  | root => exact root.mem_preorder_self
  | child _ hc ih => exact child_mem_preorder ih (mem_placed hc).1

theorem evaluation_of_check {root s : TreeSpec} (h : root.check = .ok ()) (hs : s ∈ root.preorder)
    (hleaf : s.children = []) : ∃ x, s.evaluation = some x := by
  have all : ∀ (specs : List TreeSpec) (seen : List String), checkNodes seen specs = .ok () → s ∈ specs →
      ∃ x, s.evaluation = some x := by
    intro specs
    induction specs with
    | nil => exact fun _ _ hs => by cases hs
    | cons s' rest ih =>
      intro seen hchecked hs
      rw [checkNodes] at hchecked
      split at hchecked
      · cases hchecked
      · split at hchecked
        · cases hchecked
        · split at hchecked
          · cases hchecked
          · rename_i hevaluated
            rcases List.mem_cons.mp hs with rfl | hs
            · rw [hleaf] at hevaluated
              exact Option.ne_none_iff_exists'.mp (by simpa using hevaluated)
            · exact ih _ hchecked hs
  exact all _ _ h hs

end TreeSpec

theorem foldl_favourite {α : Type} {depth : Nat} {all rest : List (α × Number)} {best : α × Number} (i next : Nat)
    (hbest : all[i]? = some best) (hrest : all.drop next = rest) :
    rest.foldl (fun best child =>
      match best with
      | none => some child
      | some current => if improves (depth % 2 == 0) child.2 current.2 then some child else best) (some best)
      = all[(TreeSpec.prefer depth (i, best.2) next (rest.map (·.2))).1]? := by
  induction rest generalizing best i next with
  | nil => exact hbest.symm
  | cons x rest ih =>
    obtain ⟨hx, htail⟩ := TreeSpec.getElem?_of_drop hrest
    have same : improves (depth % 2 == 0) x.2 best.2 = TreeSpec.better depth x.2 best.2 := by
      simp only [improves, TreeSpec.better, beq_iff_eq]
    rw [List.foldl_cons, List.map_cons, TreeSpec.prefer]
    dsimp only
    rw [same]
    split
    · exact ih _ _ hx htail
    · exact ih _ _ hbest htail

theorem favourite_eq {α : Type} (depth : Nat) (children : List (α × Number)) : favourite (depth % 2 == 0) children
    = (TreeSpec.choice? depth (children.map (·.2))).bind fun c => children[c.1]? := by
  cases children with
  | nil => rfl
  | cons x rest =>
    rw [List.map_cons, TreeSpec.choice?, Option.bind_some]
    exact foldl_favourite 0 1 rfl rfl

/-! ### Nodes -/

namespace TreeNode

open GameTree

variable {s : TreeSpec} {t : GameTree}

theorem scored_children (n : TreeNode t) :
    scored t.entries n.entry = n.children.map fun c => (c.place.val, c.score) := by
  unfold scored TreeNode.children
  rw [List.map_filterMap]
  refine List.filterMap_congr fun place _ => ?_
  unfold GameTree.node?
  split
  · rename_i hlt
    rw [Array.getElem?_eq_getElem hlt]
    rfl
  · rename_i hlt
    rw [Array.getElem?_eq_none (Nat.not_lt.mp hlt)]
    rfl

namespace Standing

variable {n : TreeNode t} {parent : Option Nat} {depth : Nat} {s' : TreeSpec}

theorem of_stands (h : ofSpec s = .ok t) (hstands : s.Stands n.place parent depth s') :
    Standing s n parent depth s' := by
  refine ⟨hstands, ?_⟩
  have hentry := getElem?_ofSpec h n.place
  rw [getElem?_place, hstands.entry] at hentry
  exact Option.some.inj hentry

theorem label_eq (hn : Standing s n parent depth s') : n.label = s'.label := by
  rw [TreeNode.label, hn.entry, settled_label]
  rfl

/-- The children of a node stand where those of its description do, in the same order. -/
theorem children (h : ofSpec s = .ok t) (hn : Standing s n parent depth s') :
    List.Forall₂ (fun c s'' => Standing s c (some n.place.val) (depth + 1) s'') n.children s'.children := by
  have all : ∀ l ⊆ TreeSpec.placed (n.place + 1) s'.children,
      List.Forall₂ (fun c s'' => Standing s c (some n.place.val) (depth + 1) s'')
        ((l.map (·.1)).filterMap t.node?) (l.map (·.2)) := by
    intro l hsub
    induction l with
    | nil => exact .nil
    | cons x l ih =>
      have hchild := hn.stands.child (hsub List.mem_cons_self)
      obtain ⟨c, hc⟩ := exists_place h hchild
      rw [List.map_cons, List.map_cons, List.filterMap_cons_some hc]
      refine .cons (of_stands h ?_) (ih fun y hy => hsub (List.mem_cons_of_mem _ hy))
      rw [node?_eq_some.mp hc]
      exact hchild
  have here := all _ (List.Subset.refl _)
  rwa [TreeSpec.map_snd_placed, ← hn.children_eq] at here

/-- The entry of a node in terms of what its player chooses among the children. -/
theorem entry_eq (hn : Standing s n parent depth s') : n.entry =
    match TreeSpec.choice? depth (n.children.map score) with
    | none => s'.entryAt parent depth n.place
    | some (i, score) =>
      { s'.entryAt parent depth n.place with score, scoreChild := (n.children[i]?).map (·.place.val) } := by
  have hscored : scored t.entries (s'.entryAt parent depth n.place) =
      n.children.map fun c => (c.place.val, c.score) := by
    rw [← scored_children, hn.entry]
    unfold scored
    rw [settled_children]
  have hfavourite := favourite_eq depth (n.children.map fun c => (c.place.val, c.score))
  rw [List.map_map, show (fun x : Nat × Number => x.2) ∘ (fun c : TreeNode t => (c.place.val, c.score)) = score
    from rfl] at hfavourite
  rw [hn.entry, settled, hscored, show (s'.entryAt parent depth n.place).depth = depth from rfl, hfavourite]
  cases hchoice : TreeSpec.choice? depth (n.children.map score) with
  | none => rfl
  | some chosen =>
    obtain ⟨i, x⟩ := chosen
    have hx := TreeSpec.getElem?_choice hchoice
    rw [List.getElem?_map] at hx
    obtain ⟨c, hc, rfl⟩ := Option.map_eq_some_iff.mp hx
    rw [Option.bind_some, List.getElem?_map]
    dsimp only
    rw [hc]
    rfl

theorem score_eq (hn : Standing s n parent depth s') : n.score
    = ((TreeSpec.choice? depth (n.children.map score)).map (·.2)).getD (s'.evaluation.getD (Number.zero false)) := by
  rw [TreeNode.score, hn.entry_eq]
  cases TreeSpec.choice? depth (n.children.map score) with
  | none => rfl
  | some c => rfl

theorem scoreChild?_eq (hn : Standing s n parent depth s') :
    n.scoreChild? = (TreeSpec.choice? depth (n.children.map score)).bind fun c => n.children[c.1]? := by
  rw [TreeNode.scoreChild?, hn.entry_eq]
  cases hchoice : TreeSpec.choice? depth (n.children.map score) with
  | none => rfl
  | some c =>
    rw [Option.bind_some]
    dsimp only
    cases hc : n.children[c.1]? with
    | none => rfl
    | some child => exact node?_eq_some.mpr rfl

/-- Scores of children are those of their descriptions, if that is so one step further down. -/
theorem scores (h : ofSpec s = .ok t) (hn : Standing s n parent depth s')
    (below : ∀ s'' ∈ s'.children, ∀ {c : TreeNode t} {parent depth}, Standing s c parent depth s'' →
      c.score = s''.minimax depth) :
    n.children.map score = s'.children.map (TreeSpec.minimax (depth + 1)) := by
  have together := hn.children h
  generalize n.children = cs, s'.children = specs at below together ⊢
  induction together with
  | nil => rfl
  | cons hc _ ih =>
    rw [List.map_cons, List.map_cons, below _ List.mem_cons_self hc]
    exact congrArg _ (ih fun s'' hs'' => below s'' (List.mem_cons_of_mem _ hs''))

theorem score_eq_minimax (h : ofSpec s = .ok t) (hn : Standing s n parent depth s') : n.score = s'.minimax depth := by
  induction s' generalizing n parent depth with
  | node label evaluation children ih =>
    rw [hn.score_eq, TreeSpec.minimax_eq, scores h hn ih]

end Standing

/-- A player who comes to a node with children chooses one of them. -/
theorem exists_choice {n : TreeNode t} (inner : n.children ≠ []) (depth : Nat) : ∃ i c,
    TreeSpec.choice? depth (n.children.map score) = some (i, c.score) ∧ n.children[i]? = some c := by
  cases hchoice : TreeSpec.choice? depth (n.children.map score) with
  | none => exact absurd (List.map_eq_nil_iff.mp (TreeSpec.choice?_eq_none hchoice)) inner
  | some best =>
    obtain ⟨i, x⟩ := best
    have hx := TreeSpec.getElem?_choice hchoice
    rw [List.getElem?_map] at hx
    obtain ⟨c, hc, rfl⟩ := Option.map_eq_some_iff.mp hx
    exact ⟨i, c, rfl, hc⟩

/-- Among numbers the child that a player chooses is the first of the best. -/
theorem choice_leads {n : TreeNode t} (numbers : ∀ c ∈ n.children, c.score.isNaN = false) {depth i : Nat} {x : Number}
    (hchoice : TreeSpec.choice? depth (n.children.map score) = some (i, x)) :
    (∀ j < i, ∀ b, n.children[j]? = some b → TreeSpec.better depth x b.score = true) ∧
      ∀ b ∈ n.children, TreeSpec.atLeast depth x b.score = true := by
  have leads := TreeSpec.Leads.choice (List.forall_mem_map.mpr numbers) hchoice
  have scored {j : Nat} {b : TreeNode t} (hb : n.children[j]? = some b) :
      (n.children.map score)[j]? = some b.score := by rw [List.getElem?_map, hb, Option.map_some]
  refine ⟨fun j hj b hb => leads.first j hj _ (scored hb), fun b hb => ?_⟩
  obtain ⟨j, hj⟩ := List.getElem?_of_mem hb
  exact leads.good j (List.getElem?_eq_some_iff.mp (scored hj)).1 _ (scored hj)

/-- What a node makes of its description: it has the minimax score, which a leaf takes from its evaluation and any
other node from one of its children; among numbers that is the first child that no other one beats. -/
structure Shows (n : TreeNode t) (steps : Nat) (s' : TreeSpec) : Prop where
  label : n.label = s'.label
  depth : n.depth = steps
  score : n.score = s'.minimax steps
  scoreChild : n.scoreChild? = (s'.chosen? steps).bind fun i => n.children[i]?
  leaf : s'.children = [] → s'.evaluation = some n.score ∧ n.scoreChild? = none
  inner : s'.children ≠ [] → ∃ c ∈ n.children, n.scoreChild? = some c ∧ n.score = c.score
  best : s'.children ≠ [] → s'.Numeric → ∃ (i : Nat) (c : TreeNode t), n.children[i]? = some c ∧
    n.scoreChild? = some c ∧ (∀ j < i, ∀ b, n.children[j]? = some b → TreeSpec.better steps c.score b.score = true) ∧
    ∀ b ∈ n.children, TreeSpec.atLeast steps c.score b.score = true

theorem Standing.shows (h : ofSpec s = .ok t) {n : TreeNode t} {parent : Option Nat} {depth : Nat} {s' : TreeSpec}
    (hn : Standing s n parent depth s') : n.Shows depth s' := by
  -- The children have their scores by the same fold, one level further down.
  have hscores : n.children.map TreeNode.score = s'.children.map (TreeSpec.minimax (depth + 1)) :=
    hn.scores h fun _ _ {_ _ _} hc => hc.score_eq_minimax h
  have inner (hne : s'.children ≠ []) : n.children ≠ [] := fun hnone => by
    rw [hnone, List.map_nil, eq_comm, List.map_eq_nil_iff] at hscores
    exact hne hscores
  have took {i : Nat} {c : TreeNode t} (hchoice : TreeSpec.choice? depth (n.children.map TreeNode.score)
      = some (i, c.score)) (hc : n.children[i]? = some c) : n.scoreChild? = some c ∧ n.score = c.score := by
    rw [hn.scoreChild?_eq, hn.score_eq, hchoice]
    exact ⟨hc, rfl⟩
  refine ⟨hn.label_eq, hn.depth_eq, hn.score_eq_minimax h, ?_, fun hleaf => ?_, fun hne => ?_, fun hne numeric => ?_⟩
  · rw [hn.scoreChild?_eq, TreeSpec.chosen?, ← hscores]
    cases TreeSpec.choice? depth (n.children.map TreeNode.score) <;> rfl
  · have hnone : n.children.map TreeNode.score = [] := by rw [hscores, hleaf, List.map_nil]
    obtain ⟨x, hx⟩ := TreeSpec.evaluation_of_check (ofSpec_eq_ok.mp h).1 hn.stands.mem_preorder hleaf
    rw [hn.scoreChild?_eq, hn.score_eq, hnone, hx]
    exact ⟨rfl, rfl⟩
  · obtain ⟨i, c, hchoice, hc⟩ := exists_choice (inner hne) depth
    obtain ⟨hchild, hscore⟩ := took hchoice hc
    exact ⟨c, List.mem_of_getElem? hc, hchild, hscore⟩
  · obtain ⟨i, c, hchoice, hc⟩ := exists_choice (inner hne) depth
    have numbers : ∀ x ∈ n.children.map score, x.isNaN = false := by
      rw [hscores]
      exact List.forall_mem_map.mpr fun s'' hs'' => (numeric.child hs'').minimax (depth + 1)
    obtain ⟨first, good⟩ := choice_leads (List.forall_mem_map.mp numbers) hchoice
    exact ⟨i, c, hc, (took hchoice hc).1, first, good⟩

/-- The node that numbers of children lead down to. -/
def at? : List Nat → TreeNode t → Option (TreeNode t)
  | [], n => some n
  | i :: path, n => n.children[i]?.bind (at? path)

theorem at?_append (path path' : List Nat) (n : TreeNode t) :
    n.at? (path ++ path') = (n.at? path).bind (at? path') := by
  induction path generalizing n with
  | nil => rfl
  | cons i path ih =>
    rw [List.cons_append, at?, at?, Option.bind_assoc]
    exact congrArg _ (funext ih)

/-- Down any path, nodes show the descriptions that the path leads to. -/
theorem Standing.shows_at (h : ofSpec s = .ok t) {n : TreeNode t} {parent : Option Nat} {depth : Nat} {s' : TreeSpec}
    (hn : Standing s n parent depth s') (path : List Nat) :
    Option.Rel (fun n s' => n.Shows (depth + path.length) s') (n.at? path) (s'.at? path) := by
  induction path generalizing n parent depth s' with
  | nil => exact .some (hn.shows h)
  | cons i path ih =>
    have together := hn.children h
    rw [at?, TreeSpec.at?, List.length_cons, Nat.add_comm path.length, ← Nat.add_assoc]
    generalize n.children = cs, s'.children = specs at together ⊢
    induction together generalizing i with
    | nil => exact .none
    | cons hc _ ihrest =>
      cases i with
      | zero => exact ih hc
      | succ i => exact ihrest i

end TreeNode

/-- The node that numbers of children lead down to from the root. -/
def GameTree.at? (t : GameTree) (path : List Nat) : Option (TreeNode t) := t.root?.bind (TreeNode.at? path)

namespace TreeNode

open GameTree

variable {s : TreeSpec} {t : GameTree}

theorem exists_path (h : ofSpec s = .ok t) {place depth : Nat} {parent : Option Nat} {s' : TreeSpec}
    (hstands : s.Stands place parent depth s') : ∃ path, t.at? path = t.node? place := by
  induction hstands with
  | root => exact ⟨[], Option.bind_fun_some _⟩
  | @child place place' depth parent s' c hstands hc ih =>
    obtain ⟨path, hpath⟩ := ih
    obtain ⟨n, hn⟩ := exists_place h hstands
    obtain ⟨m, hm⟩ := exists_place h (hstands.child hc)
    have hchild : m ∈ n.children := by
      rw [← node?_eq_some.mp hn] at hstands
      rw [TreeNode.children, (Standing.of_stands h hstands).children_eq, List.mem_filterMap, node?_eq_some.mp hn]
      exact ⟨place', List.mem_map_of_mem (f := (·.1)) hc, hm⟩
    obtain ⟨i, hi⟩ := List.getElem?_of_mem hchild
    refine ⟨path ++ [i], ?_⟩
    rw [hm, GameTree.at?, funext (at?_append path [i]), ← Option.bind_assoc]
    change (t.at? path).bind (at? [i]) = some m
    rw [hpath, hn, Option.bind_some, at?, hi]
    rfl

end TreeNode

/-- A tree shows its description: every node is at a path, a path leads to a node where it leads to a description,
and the node has the score and the chosen child that the description gives it. -/
theorem GameTree.shows_ofSpec {s : TreeSpec} {t : GameTree} (built : ofSpec s = .ok t) :
    (∀ n : TreeNode t, ∃ path, t.at? path = some n) ∧
      ∀ path, Option.Rel (fun n s' => n.Shows path.length s') (t.at? path) (s.at? path) := by
  constructor
  · intro n
    obtain ⟨parent, depth, s', hn⟩ := TreeNode.exists_standing built n
    obtain ⟨path, hpath⟩ := TreeNode.exists_path built hn.stands
    exact ⟨path, hpath.trans (TreeNode.node?_eq_some.mpr rfl)⟩
  · intro path
    obtain ⟨root, hroot⟩ := TreeNode.exists_place built .root
    have hstands : s.Stands root.place none 0 s := by
      rw [TreeNode.node?_eq_some.mp hroot]
      exact .root
    have shows := (TreeNode.Standing.of_stands built hstands).shows_at built path
    rw [Nat.zero_add] at shows
    rw [GameTree.at?, GameTree.root?, hroot]
    exact shows

/-- Two moves of one value, at the root an evaluation that does not count. -/
def TreeSpec.tie : TreeSpec :=
  ⟨"now", some (Number.infinity false), [
    internal "left" [leaf "near" (Number.zero false), leaf "far" (Number.infinity false)],
    leaf "right" (Number.zero true)]⟩

theorem GameTree.shows_tie : ∃ t, ofSpec TreeSpec.tie = .ok t ∧ ∃ n : TreeNode t, t.root? = some n ∧
    n.Shows 0 TreeSpec.tie ∧ n.score = Number.zero false ∧ n.scoreChild?.map TreeNode.label = some "left" := by
  refine ⟨_, rfl, ⟨⟨0, by decide⟩⟩, rfl, ?_⟩
  obtain ⟨-, shows⟩ := GameTree.shows_ofSpec (s := TreeSpec.tie) rfl
  obtain ⟨root⟩ := shows []
  refine ⟨root, root.score.trans (by decide), ?_⟩
  rw [root.scoreChild]
  decide

end Rationale
