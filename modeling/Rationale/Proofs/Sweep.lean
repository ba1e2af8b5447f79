import Rationale.Proofs.Layout

/-!
The sweep over a layout. Relatives stand after their parents, so when the sweep comes to a node it finds the
children as they stay; in the finished tree every entry is what the entries of its children make of it. Parents
and children are mutual, a child is one step deeper than its parent, and every node that is no leaf has the score
of one of its children.
-/

namespace Rationale

/-- A fold that keeps what it has or takes the next one ends at one of them. -/
theorem foldl_chooses {α : Type} {step : Option α → α → Option α}
    (chooses : ∀ best x, step (some best) x = some x ∨ step (some best) x = some best) (best : α) (l : List α) :
    ∃ c ∈ best :: l, l.foldl step (some best) = some c := by
  induction l generalizing best with
  | nil => exact ⟨best, List.mem_cons_self, rfl⟩
  | cons x l ih =>
    rw [List.foldl_cons]
    rcases chooses best x with h | h
    · rw [h]
      obtain ⟨c, hc, hl⟩ := ih x
      exact ⟨c, List.mem_cons_of_mem _ hc, hl⟩
    · rw [h]
      obtain ⟨c, hc, hl⟩ := ih best
      refine ⟨c, ?_, hl⟩
      rcases List.mem_cons.mp hc with rfl | hc
      · exact List.mem_cons_self
      · exact List.mem_cons_of_mem _ (List.mem_cons_of_mem _ hc)

theorem favourite_cases {α : Type} (maximizing : Bool) (children : List (α × Number)) :
    (children = [] ∧ favourite maximizing children = none) ∨
      ∃ c ∈ children, favourite maximizing children = some c := by
  cases children with
  | nil => exact Or.inl ⟨rfl, rfl⟩
  | cons x l =>
    refine Or.inr (foldl_chooses (fun best child => ?_) x l)
    dsimp only
    split
    · exact Or.inl rfl
    · exact Or.inr rfl

namespace GameTree

/-- The children of an entry with their scores. -/
def scored (entries : Array TreeEntry) (e : TreeEntry) : List (Nat × Number) :=
  e.children.filterMap fun c => (entries[c]?).map fun child => (c, child.score)

/-- The entry with what its children make of it. -/
def settled (entries : Array TreeEntry) (e : TreeEntry) : TreeEntry :=
  match favourite (e.depth % 2 == 0) (scored entries e) with
  | none => e
  | some (child, score) => { e with score, scoreChild := some child }

section Settled
variable (entries : Array TreeEntry) (e : TreeEntry)

@[simp] theorem settled_label : (settled entries e).label = e.label := by
  unfold settled
  split <;> rfl

@[simp] theorem settled_evaluation : (settled entries e).evaluation = e.evaluation := by
  unfold settled
  split <;> rfl

@[simp] theorem settled_parent : (settled entries e).parent = e.parent := by
  unfold settled
  split <;> rfl

@[simp] theorem settled_children : (settled entries e).children = e.children := by
  unfold settled
  split <;> rfl

@[simp] theorem settled_depth : (settled entries e).depth = e.depth := by
  unfold settled
  split <;> rfl

theorem settled_congr {entries entries' : Array TreeEntry} {e : TreeEntry}
    (h : ∀ c ∈ e.children, entries[c]? = entries'[c]?) : settled entries e = settled entries' e := by
  have hscored : scored entries e = scored entries' e := List.filterMap_congr fun c hc => by rw [h c hc]
  unfold settled
  rw [hscored]

end Settled

/-! ### The sweep -/

theorem settle_of_some {entries : Array TreeEntry} {i : Nat} {e : TreeEntry} (he : entries[i]? = some e) :
    settle entries i = entries.setIfInBounds i (settled entries e) := by
  unfold settle settled
  rw [he]
  change (match favourite (e.depth % 2 == 0) (scored entries e) with
    | none => entries
    | some (child, score) => entries.setIfInBounds i { e with score, scoreChild := some child }) = _
  cases favourite (e.depth % 2 == 0) (scored entries e) with
  | none =>
    obtain ⟨hlt, rfl⟩ := Array.getElem?_eq_some_iff.mp he
    rw [Array.setIfInBounds, dif_pos hlt]
    exact (Array.set_getElem_self hlt).symm
  | some chosen => rfl

theorem getElem?_settle (entries : Array TreeEntry) (i j : Nat) : (settle entries i)[j]?
    = if i = j then (entries[j]?).map (settled entries) else entries[j]? := by
  cases he : entries[i]? with
  | none =>
    have hsettle : settle entries i = entries := by
      unfold settle
      rw [he]
    rw [hsettle]
    split
    · rename_i hij
      rw [← hij, he]
      rfl
    · rfl
  | some e =>
    rw [settle_of_some he, Array.getElem?_setIfInBounds]
    split
    · rename_i hij
      obtain ⟨hlt, -⟩ := Array.getElem?_eq_some_iff.mp he
      rw [if_pos hlt, ← hij, he]
      rfl
    · rfl

/-- Children stand after their parents. -/
def ParentsFirst (entries : Array TreeEntry) : Prop :=
  ∀ (i : Nat) (e : TreeEntry), entries[i]? = some e → ∀ c ∈ e.children, i < c

theorem ParentsFirst.settle {entries : Array TreeEntry} (h : ParentsFirst entries) (n : Nat) :
    ParentsFirst (settle entries n) := by
  intro i e he
  rw [getElem?_settle] at he
  split at he
  · obtain ⟨e', he', rfl⟩ := Option.map_eq_some_iff.mp he
    rw [settled_children]
    exact h i e' he'
  · exact h i e he

/-- A sweep leaves the entries it does not come to, and every entry it has come to is what the final entries make
of it. -/
theorem getElem?_sweep {entries : Array TreeEntry} (first : ParentsFirst entries) (n j : Nat) : (sweep entries n)[j]?
    = if j < n then (entries[j]?).map (settled (sweep entries n)) else entries[j]? := by
  induction n generalizing entries j with
  | zero => rw [sweep, if_neg (Nat.not_lt_zero j)]
  | succ n ih =>
    have rest := ih (first.settle n)
    rw [sweep, rest, getElem?_settle]
    rcases Nat.lt_trichotomy j n with hj | rfl | hj
    · rw [if_pos hj, if_neg (Nat.ne_of_gt hj), if_pos (Nat.lt_succ_of_lt hj)]
    · rw [if_neg (Nat.lt_irrefl j), if_pos rfl, if_pos (Nat.lt_succ_self j)]
      cases he : entries[j]? with
      | none => rfl
      | some e =>
        -- Neither this step nor the rest of the sweep changes what stands after the node, as its children do.
        have kept : ∀ c ∈ e.children, entries[c]? = (sweep (settle entries j) j)[c]? := by
          intro c hc
          have hlt := first j e he c hc
          rw [rest, if_neg (Nat.not_lt_of_gt hlt), getElem?_settle, if_neg (Nat.ne_of_lt hlt)]
        exact congrArg some (settled_congr kept)
    · rw [if_neg (Nat.not_lt_of_gt hj), if_neg (Nat.ne_of_lt hj), if_neg (Nat.not_lt_of_le hj)]

/-- An entry that was laid is that of a description which stands there. -/
theorem stands_of_lay {s : TreeSpec} {i : Nat} {e : TreeEntry} (he : (s.lay none 0 0)[i]? = some e) :
    ∃ parent depth s', s.Stands i parent depth s' ∧ e = s'.entryAt parent depth i := by
  obtain ⟨hlt, -⟩ := List.getElem?_eq_some_iff.mp he
  rw [TreeSpec.length_lay] at hlt
  obtain ⟨parent, depth, s', hstands⟩ := s.exists_stands hlt
  rw [hstands.entry] at he
  exact ⟨parent, depth, s', hstands, (Option.some.inj he).symm⟩

theorem parentsFirst_lay (s : TreeSpec) : ParentsFirst (s.lay none 0 0).toArray := by
  intro i e he c hc
  rw [List.getElem?_toArray] at he
  obtain ⟨parent, depth, s', -, rfl⟩ := stands_of_lay he
  rw [TreeSpec.entryAt_children] at hc
  obtain ⟨⟨place, c'⟩, hplaced, rfl⟩ := List.mem_map.mp hc
  exact (TreeSpec.mem_placed hplaced).2

theorem ofSpec_eq_ok {s : TreeSpec} {t : GameTree} : ofSpec s = .ok t ↔
    s.check = .ok () ∧ t = ⟨sweep (s.lay none 0 0).toArray (s.lay none 0 0).toArray.size⟩ := by
  unfold ofSpec
  cases s.check with
  | error e => simp [bind, Except.bind]
  | ok u => simp [bind, Except.bind, pure, Except.pure, eq_comm]

theorem ofSpec_eq_error {s : TreeSpec} {e : TreeError} : ofSpec s = .error e ↔ s.check = .error e := by
  unfold ofSpec
  cases s.check with
  | error e' => simp [bind, Except.bind]
  | ok u => simp [bind, Except.bind, pure, Except.pure]

/-- Every entry of a tree is what the entries of the tree make of the one in the layout. -/
theorem getElem?_ofSpec {s : TreeSpec} {t : GameTree} (h : ofSpec s = .ok t) (i : Nat) :
    t.entries[i]? = ((s.lay none 0 0)[i]?).map (settled t.entries) := by
  obtain ⟨-, rfl⟩ := ofSpec_eq_ok.mp h
  dsimp only
  rw [getElem?_sweep (parentsFirst_lay s), List.getElem?_toArray]
  split
  · rfl
  · rename_i hlt
    rw [List.size_toArray, Nat.not_lt] at hlt
    rw [List.getElem?_eq_none hlt]
    rfl

end GameTree

/-! ### Nodes -/

namespace TreeNode

open GameTree

variable {s : TreeSpec} {t : GameTree} (h : ofSpec s = .ok t)

theorem node?_eq_some {i : Nat} {n : TreeNode t} : t.node? i = some n ↔ n.place.val = i := by
  unfold GameTree.node?
  split
  · rename_i hlt
    obtain ⟨⟨p, hp⟩⟩ := n
    simp [eq_comm]
  · rename_i hlt
    simp only [reduceCtorEq, false_iff]
    exact fun he => hlt (he ▸ n.place.isLt)

theorem same_iff {n m : TreeNode t} : Node.same n m = true ↔ n = m := by
  obtain ⟨n⟩ := n
  obtain ⟨m⟩ := m
  exact beq_iff_eq.trans ⟨congrArg TreeNode.mk, fun h => by cases h; rfl⟩

theorem getElem?_place (n : TreeNode t) : t.entries[n.place.val]? = some n.entry :=
  Array.getElem?_eq_getElem n.place.isLt

/-- A description stands where the node is, and the node has the entry that comes of it. -/
structure Standing (root : TreeSpec) (n : TreeNode t) (parent : Option Nat) (depth : Nat) (s : TreeSpec) : Prop where
  stands : root.Stands n.place parent depth s
  entry : n.entry = settled t.entries (s.entryAt parent depth n.place)

namespace Standing

variable {n : TreeNode t} {parent : Option Nat} {depth : Nat} {s' : TreeSpec} (hn : Standing s n parent depth s')

include hn

theorem parent_eq : n.entry.parent = parent := by
  rw [hn.entry, settled_parent]
  rfl

theorem depth_eq : n.depth = depth := by
  rw [TreeNode.depth, hn.entry, settled_depth]
  rfl

theorem children_eq : n.entry.children = (TreeSpec.placed (n.place + 1) s'.children).map (·.1) := by
  rw [hn.entry, settled_children, TreeSpec.entryAt_children]

/-- The parent of the node stands where the parent of the description does. -/
theorem parent?_eq_some {p : TreeNode t} : n.parent? = some p ↔ parent = some p.place.val := by
  unfold TreeNode.parent?
  rw [hn.parent_eq, Option.bind_eq_some_iff]
  constructor
  · rintro ⟨place, rfl, hp⟩
    exact congrArg some (node?_eq_some.mp hp).symm
  · exact fun hp => ⟨p.place, hp, node?_eq_some.mpr rfl⟩

end Standing

include h

theorem exists_standing (n : TreeNode t) : ∃ parent depth s', Standing s n parent depth s' := by
  have hentry := getElem?_ofSpec h n.place
  rw [getElem?_place] at hentry
  obtain ⟨e, he, hsettled⟩ := Option.map_eq_some_iff.mp hentry.symm
  obtain ⟨parent, depth, s', hstands, rfl⟩ := stands_of_lay he
  exact ⟨parent, depth, s', hstands, hsettled.symm⟩

/-- Where a description stands, there is a node. -/
theorem exists_place {place depth : Nat} {parent : Option Nat} {s' : TreeSpec}
    (hstands : s.Stands place parent depth s') : ∃ n : TreeNode t, t.node? place = some n := by
  have hentry := getElem?_ofSpec h place
  rw [hstands.entry] at hentry
  obtain ⟨hlt, -⟩ := Array.getElem?_eq_some_iff.mp hentry
  exact ⟨⟨⟨place, hlt⟩⟩, node?_eq_some.mpr rfl⟩

theorem depth_le_height (n : TreeNode t) : n.depth ≤ s.height := by
  obtain ⟨parent, depth, s', hn⟩ := exists_standing h n
  have := hn.stands.depth_add_height_le
  have := hn.depth_eq
  omega

/-- A child is a node whose parent is the node. -/
theorem mem_children {n c : TreeNode t} : c ∈ n.children ↔ c.parent? = some n := by
  obtain ⟨parent, depth, s', hn⟩ := exists_standing h n
  obtain ⟨parentc, depthc, sc, hc⟩ := exists_standing h c
  rw [hc.parent?_eq_some, TreeNode.children, hn.children_eq, List.mem_filterMap]
  constructor
  · rintro ⟨place, hplace, hnode⟩
    obtain ⟨x, hx, rfl⟩ := List.mem_map.mp hplace
    have hchild := hn.stands.child hx
    rw [← node?_eq_some.mp hnode] at hchild
    exact congrArg TreeEntry.parent (hc.stands.entryAt_unique hchild)
  · rintro rfl
    obtain ⟨parent', depth', s'', hstands, -, hplaced⟩ := hc.stands.of_parent
    refine ⟨c.place, ?_, node?_eq_some.mpr rfl⟩
    have hsame := congrArg TreeEntry.children (hn.stands.entryAt_unique hstands)
    rw [TreeSpec.entryAt_children, TreeSpec.entryAt_children] at hsame
    rw [hsame]
    exact List.mem_map_of_mem (f := (·.1)) hplaced

theorem depth_of_parent? {n c : TreeNode t} (hp : c.parent? = some n) : c.depth = n.depth + 1 := by
  obtain ⟨parent, depth, s', hn⟩ := exists_standing h n
  obtain ⟨parentc, depthc, sc, hc⟩ := exists_standing h c
  cases hc.parent?_eq_some.mp hp
  obtain ⟨parent', depth', s'', hstands, hdepth, -⟩ := hc.stands.of_parent
  have hsame : depth = depth' := congrArg TreeEntry.depth (hn.stands.entryAt_unique hstands)
  rw [hc.depth_eq, hn.depth_eq, hdepth, hsame]

/-- Every node but the first has a parent. -/
theorem exists_parent {n : TreeNode t} (hne : n.place.val ≠ 0) : ∃ p, n.parent? = some p := by
  obtain ⟨parent, depth, s', hn⟩ := exists_standing h n
  obtain ⟨q, rfl⟩ := hn.stands.exists_parent hne
  obtain ⟨parent', depth', s'', hstands, -, -⟩ := hn.stands.of_parent
  obtain ⟨p, hp⟩ := exists_place h hstands
  exact ⟨p, hn.parent?_eq_some.mpr (congrArg some (node?_eq_some.mp hp).symm)⟩

/-- A node that is no leaf has the score of one of its children. -/
theorem exists_scoreChild {n : TreeNode t} (hleaf : n.isLeaf = false) :
    ∃ c ∈ n.children, n.scoreChild? = some c := by
  obtain ⟨parent, depth, s', hn⟩ := exists_standing h n
  rcases favourite_cases ((s'.entryAt parent depth n.place).depth % 2 == 0)
    (scored t.entries (s'.entryAt parent depth n.place)) with ⟨hnone, -⟩ | ⟨⟨place, score⟩, hmem, hchosen⟩
  · -- Every child has an entry, so scores are missing only where there is no child.
    exfalso
    rw [TreeNode.isLeaf, hn.children_eq] at hleaf
    cases hplaced : TreeSpec.placed (n.place + 1) s'.children with
    | nil =>
      rw [hplaced] at hleaf
      cases hleaf
    | cons x rest =>
      have hx : x ∈ TreeSpec.placed (n.place + 1) s'.children := hplaced ▸ List.mem_cons_self
      obtain ⟨c, hc⟩ := exists_place h (hn.stands.child hx)
      have hentryc := getElem?_place c
      rw [node?_eq_some.mp hc] at hentryc
      have hscored : (x.1, c.entry.score) ∈ scored t.entries (s'.entryAt parent depth n.place) := by
        refine List.mem_filterMap.mpr ⟨x.1, ?_, by rw [hentryc]; rfl⟩
        rw [TreeSpec.entryAt_children]
        exact List.mem_map_of_mem hx
      rw [hnone] at hscored
      cases hscored
  · obtain ⟨place', hplace', hscore⟩ := List.mem_filterMap.mp hmem
    obtain ⟨child, hchild, heq⟩ := Option.map_eq_some_iff.mp hscore
    cases heq
    obtain ⟨hlt, -⟩ := Array.getElem?_eq_some_iff.mp hchild
    have hnode : t.node? place = some ⟨⟨place, hlt⟩⟩ := node?_eq_some.mpr rfl
    rw [TreeSpec.entryAt_children, ← hn.children_eq] at hplace'
    refine ⟨⟨⟨place, hlt⟩⟩, List.mem_filterMap.mpr ⟨place, hplace', hnode⟩, ?_⟩
    unfold TreeNode.scoreChild?
    rw [hn.entry, settled, hchosen]
    exact hnode

theorem depth_lt_height {n : TreeNode t} (hleaf : n.isLeaf = false) : n.depth < s.height := by
  obtain ⟨c, hc, -⟩ := exists_scoreChild h hleaf
  have hdepth := depth_of_parent? h ((mem_children h).mp hc)
  have hle := depth_le_height h c
  omega

end TreeNode

end Rationale
