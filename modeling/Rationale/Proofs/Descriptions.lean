import Mathlib.Data.List.Nodup
import Rationale.Proofs.Arena
import Rationale.Proofs.Scores

/-!
Which descriptions are trees, and what a tree keeps of its description. A description is refused for the first node in
preorder that has no label, has one that was used before, or is a leaf without evaluation. The tree of any other
description has its nodes in preorder and gives the description back as it was.
-/

namespace Rationale

namespace TreeSpec

/-- Nodes with labels of their own, the leaves of them with evaluations. -/
structure Sound (specs : List TreeSpec) : Prop where
  labelled : ∀ s ∈ specs, s.label ≠ ""
  distinct : (specs.map (·.label)).Nodup
  evaluated : ∀ s ∈ specs, s.children = [] → s.evaluation ≠ none

/-- The fault of a node when some labels are taken; a fault counts only if none of those above it is there. -/
inductive Fault (taken : List String) (s : TreeSpec) : TreeError → Prop
  | unlabelled (h : s.label = "") : Fault taken s .emptyLabel
  | repeated (labelled : s.label ≠ "") (h : s.label ∈ taken) : Fault taken s (.duplicateLabel s.label)
  | unevaluated (labelled : s.label ≠ "") (new : s.label ∉ taken) (leaf : s.children = []) (h : s.evaluation = none) :
    Fault taken s (.missingEvaluation s.label)

theorem Fault.mono {taken taken' : List String} {s : TreeSpec} {e : TreeError} (h : Fault taken s e)
    (same : s.label ∈ taken ↔ s.label ∈ taken') : Fault taken' s e := by
  cases h with
  | unlabelled h => exact .unlabelled h
  | repeated labelled h => exact .repeated labelled (same.mp h)
  | unevaluated labelled new leaf h => exact .unevaluated labelled (new ∘ same.mpr) leaf h

theorem Fault.check {seen : List String} {s : TreeSpec} {e : TreeError} (h : Fault seen s e) (rest : List TreeSpec) :
    checkNodes seen (s :: rest) = .error e := by
  rw [checkNodes]
  cases h with
  | unlabelled h => rw [if_pos (String.isEmpty_iff.mpr h)]
  | repeated labelled h =>
    rw [if_neg (labelled ∘ String.isEmpty_iff.mp), if_pos (List.contains_iff_mem.mpr h)]
  | unevaluated labelled new leaf h =>
    rw [if_neg (labelled ∘ String.isEmpty_iff.mp), if_neg (new ∘ List.contains_iff_mem.mp), leaf, h]
    rfl

/-- A check stops at a node with a fault, and goes on after any other. -/
theorem checkNodes_cons (seen : List String) (s : TreeSpec) :
    (∃ e, Fault seen s e) ∨ (s.label ≠ "" ∧ s.label ∉ seen ∧ (s.children = [] → s.evaluation ≠ none)) ∧
      ∀ rest, checkNodes seen (s :: rest) = checkNodes (s.label :: seen) rest := by
  by_cases labelled : s.label = ""
  · exact Or.inl ⟨_, .unlabelled labelled⟩
  by_cases seen_before : s.label ∈ seen
  · exact Or.inl ⟨_, .repeated labelled seen_before⟩
  by_cases unevaluated : s.children = [] ∧ s.evaluation = none
  · exact Or.inl ⟨_, .unevaluated labelled seen_before unevaluated.1 unevaluated.2⟩
  refine Or.inr ⟨⟨labelled, seen_before, fun hleaf hnone => unevaluated ⟨hleaf, hnone⟩⟩, fun rest => ?_⟩
  rw [checkNodes, if_neg (labelled ∘ String.isEmpty_iff.mp), if_neg (seen_before ∘ List.contains_iff_mem.mp), if_neg]
  rwa [Bool.and_eq_true_iff, List.isEmpty_iff, Option.isNone_iff_eq_none]

theorem checkNodes_eq_ok {seen : List String} {specs : List TreeSpec} :
    checkNodes seen specs = .ok () ↔ Sound specs ∧ ∀ s ∈ specs, s.label ∉ seen := by
  -- The labels that were seen grow along the list, so the induction is over all of them.
  induction specs generalizing seen with
  | nil =>
    rw [checkNodes]
    exact iff_of_true rfl ⟨⟨fun _ h => (by cases h), List.nodup_nil, fun _ h => (by cases h)⟩, fun _ h => by cases h⟩
  | cons s rest ih =>
    constructor
    · intro h
      rcases checkNodes_cons seen s with ⟨e, fault⟩ | ⟨⟨labelled, new, evaluated⟩, goes_on⟩
      · rw [fault.check rest] at h
        cases h
      · obtain ⟨sound, apart⟩ := ih.mp ((goes_on rest).symm.trans h)
        refine ⟨⟨List.forall_mem_cons.mpr ⟨labelled, sound.labelled⟩, List.nodup_cons.mpr ⟨fun hmem => ?_, sound.distinct⟩,
          List.forall_mem_cons.mpr ⟨evaluated, sound.evaluated⟩⟩, List.forall_mem_cons.mpr ⟨new, fun s' hs' => ?_⟩⟩
        · obtain ⟨s', hs', hlabel⟩ := List.mem_map.mp hmem
          exact apart s' hs' (hlabel ▸ List.mem_cons_self)
        · exact fun h => apart s' hs' (List.mem_cons_of_mem _ h)
    · rintro ⟨sound, apart⟩
      obtain ⟨labelled, labelled_rest⟩ := List.forall_mem_cons.mp sound.labelled
      obtain ⟨new, distinct⟩ := List.nodup_cons.mp sound.distinct
      obtain ⟨evaluated, evaluated_rest⟩ := List.forall_mem_cons.mp sound.evaluated
      obtain ⟨unseen, unseen_rest⟩ := List.forall_mem_cons.mp apart
      rcases checkNodes_cons seen s with ⟨e, fault⟩ | ⟨-, goes_on⟩
      · cases fault with
        | unlabelled h => exact absurd h labelled
        | repeated _ h => exact absurd h unseen
        | unevaluated _ _ leaf h => exact absurd h (evaluated leaf)
      · rw [goes_on, ih]
        refine ⟨⟨labelled_rest, distinct, evaluated_rest⟩, fun s' hs' h => ?_⟩
        rcases List.mem_cons.mp h with h | h
        · exact new (List.mem_map.mpr ⟨s', hs', h⟩)
        · exact unseen_rest s' hs' h

theorem checkNodes_eq_error {seen : List String} {specs : List TreeSpec} {e : TreeError} :
    checkNodes seen specs = .error e ↔ ∃ before s after, specs = before ++ s :: after ∧
      checkNodes seen before = .ok () ∧ Fault ((before.map (·.label)).reverse ++ seen) s e := by
  constructor
  · intro h
    induction specs generalizing seen with
    | nil => cases h
    | cons s rest ih =>
      rcases checkNodes_cons seen s with ⟨e', fault⟩ | ⟨-, goes_on⟩
      · cases (fault.check rest).symm.trans h
        exact ⟨[], s, rest, rfl, rfl, fault⟩
      · obtain ⟨before, s', after, rfl, checked, fault⟩ := ih ((goes_on rest).symm.trans h)
        refine ⟨s :: before, s', after, rfl, (goes_on before).trans checked, ?_⟩
        rwa [List.map_cons, List.reverse_cons, List.append_assoc]
  · rintro ⟨before, s, after, rfl, checked, fault⟩
    rw [checkNodes_append, checked]
    exact fault.check after

theorem check_eq_ok {s : TreeSpec} : s.check = .ok () ↔ Sound s.preorder :=
  checkNodes_eq_ok.trans (and_iff_left fun _ _ h => by cases h)

theorem check_eq_error {s : TreeSpec} {e : TreeError} : s.check = .error e ↔
    ∃ before node after, s.preorder = before ++ node :: after ∧ Sound before ∧ Fault (before.map (·.label)) node e := by
  refine checkNodes_eq_error.trans (exists_congr fun before => exists_congr fun node => exists_congr fun after => ?_)
  have taken : node.label ∈ (before.map (·.label)).reverse ++ [] ↔ node.label ∈ before.map (·.label) := by
    rw [List.append_nil, List.mem_reverse]
  rw [checkNodes_eq_ok, and_iff_left fun _ _ h => by cases h]
  exact and_congr_right fun _ => and_congr_right fun _ => ⟨fun h => h.mono taken, fun h => h.mono taken.symm⟩

theorem height_lt_size (s : TreeSpec) : s.height < s.size := by
  induction s with
  | node label evaluation children ih =>
    have all : ∀ specs ⊆ children, heightOfAll specs ≤ (preorderOfAll specs).length := by
      intro specs hsub
      induction specs with
      | nil => exact Nat.zero_le _
      | cons c rest ihrest =>
        obtain ⟨hc, hrest⟩ := List.cons_subset.mp hsub
        have hlt := ih c hc
        have hle := ihrest hrest
        rw [heightOfAll, length_preorderOfAll_cons]
        omega
    rw [height, size_eq]
    exact Nat.lt_succ_of_le (all children (List.Subset.refl _))

theorem children_of_height {s : TreeSpec} (h : s.height = 0) : s.children = [] := by
  cases hchildren : s.children with
  | nil => rfl
  | cons c rest =>
    have hlt := height_lt (hchildren ▸ List.mem_cons_self : c ∈ s.children)
    omega

end TreeSpec

/-! ### Trees -/

namespace TreeNode

open GameTree

variable {s : TreeSpec} {t : GameTree}

namespace Standing

variable {n : TreeNode t} {parent : Option Nat} {depth : Nat} {s' : TreeSpec}

theorem evaluation_eq (hn : Standing s n parent depth s') : n.entry.evaluation = s'.evaluation := by
  rw [hn.entry, settled_evaluation]
  rfl

/-- A node that is followed far enough down gives its description back. -/
theorem specWithin_eq (h : ofSpec s = .ok t) (hn : Standing s n parent depth s') {d : Nat} (deep : s'.height ≤ d) :
    n.specWithin d = s' := by
  induction s' generalizing n parent depth d with
  | node label evaluation children ih =>
    cases d with
    | zero =>
      rw [specWithin, hn.label_eq, hn.evaluation_eq, ← TreeSpec.children_of_height (Nat.le_zero.mp deep)]
    | succ d =>
      have below {cs : List (TreeNode t)} {specs : List TreeSpec} (hsub : specs ⊆ children) (together : List.Forall₂
          (fun c s'' => Standing s c (some n.place.val) (depth + 1) s'') cs specs) : cs.map (specWithin d) = specs := by
        induction together with
        | nil => rfl
        | cons hc _ ihrest =>
          obtain ⟨hmem, hrest⟩ := List.cons_subset.mp hsub
          have shallow := Nat.le_of_lt_succ (Nat.lt_of_lt_of_le (TreeSpec.height_lt hmem) deep)
          rw [List.map_cons, ih _ hmem hc shallow, ihrest hrest]
      rw [specWithin, hn.label_eq, hn.evaluation_eq, below (List.Subset.refl _) (hn.children h)]

end Standing

end TreeNode

/-- What a tree keeps of its description. -/
structure GameTree.Presents (t : GameTree) (s : TreeSpec) : Prop where
  spec : t.toSpec? = some s
  nodes : t.nodes.map (TreeNode.specWithin t.size) = s.preorder
  relatives : ∀ n c : TreeNode t, c ∈ n.children ↔ c.parent? = some n
  depths : ∀ n c : TreeNode t, c.parent? = some n → c.depth = n.depth + 1
  parentsFirst : ∀ n c : TreeNode t, c.parent? = some n → n.place < c.place
  root : ∀ n : TreeNode t, t.root? = some n ↔ n.parent? = none
  find : ∀ label (n : TreeNode t), t.find? label = some n ↔ n.label = label

namespace GameTree

open TreeNode

theorem length_nodes (t : GameTree) : t.nodes.length = t.size := by
  rw [nodes, List.length_map, List.length_finRange, size]

theorem mem_nodes (n : TreeNode t) : n ∈ t.nodes := List.mem_map_of_mem (List.mem_finRange n.place)

variable {s : TreeSpec} {t : GameTree} (h : ofSpec s = .ok t)

include h

theorem size_ofSpec : t.size = s.size := by
  have ends (i : Nat) : t.size ≤ i ↔ s.size ≤ i := by
    rw [size, ← Array.getElem?_eq_none_iff, getElem?_ofSpec h, Option.map_eq_none_iff, List.getElem?_eq_none_iff,
      TreeSpec.length_lay]
  exact Nat.le_antisymm ((ends s.size).mpr (Nat.le_refl _)) ((ends t.size).mp (Nat.le_refl _))

theorem specWithin_size {n : TreeNode t} {parent : Option Nat} {depth : Nat} {s' : TreeSpec}
    (hn : Standing s n parent depth s') : n.specWithin t.size = s' := by
  refine hn.specWithin_eq h ?_
  have hdepth := hn.stands.depth_add_height_le
  have hsize := s.height_lt_size
  rw [size_ofSpec h]
  omega

theorem toSpec?_ofSpec : t.toSpec? = some s := by
  obtain ⟨n, hn⟩ := exists_place h .root
  have stands : s.Stands n.place none 0 s := by
    rw [node?_eq_some.mp hn]
    exact .root
  rw [toSpec?, root?, hn, Option.map_some, specWithin_size h (Standing.of_stands h stands)]

theorem nodes_ofSpec : t.nodes.map (specWithin t.size) = s.preorder := by
  refine List.ext_getElem? fun i => ?_
  rw [List.getElem?_map]
  rcases Nat.lt_or_ge i t.size with hi | hi
  · have hnode : t.nodes[i]? = some ⟨⟨i, hi⟩⟩ := by
      rw [nodes, List.getElem?_map, List.getElem?_eq_getElem (by rwa [List.length_finRange]), List.getElem_finRange]
      rfl
    obtain ⟨parent, depth, s', hn⟩ := exists_standing h ⟨⟨i, hi⟩⟩
    rw [hnode, Option.map_some, specWithin_size h hn]
    exact hn.stands.getElem?_preorder.symm
  · have hlength : s.preorder.length ≤ i := by rwa [size_ofSpec h] at hi
    rw [List.getElem?_eq_none (by rwa [length_nodes]), List.getElem?_eq_none hlength]
    rfl

theorem nodup_labels : (t.nodes.map TreeNode.label).Nodup := by
  have labels : t.nodes.map TreeNode.label = s.preorder.map (·.label) := by
    rw [← nodes_ofSpec h, List.map_map]
    refine List.map_congr_left fun n _ => ?_
    obtain ⟨parent, depth, s', hn⟩ := exists_standing h n
    rw [Function.comp, specWithin_size h hn, hn.label_eq]
  rw [labels]
  exact (TreeSpec.check_eq_ok.mp (ofSpec_eq_ok.mp h).1).distinct

theorem find?_ofSpec {label : String} {n : TreeNode t} : t.find? label = some n ↔ n.label = label := by
  have found {m : TreeNode t} (hm : t.find? label = some m) : m.label = label := by
    have test := List.find?_some hm
    exact eq_of_beq test
  refine ⟨found, fun hlabel => ?_⟩
  cases hm : t.find? label with
  | none =>
    have missing := List.find?_eq_none.mp hm n (mem_nodes n)
    exact absurd (beq_iff_eq.mpr hlabel) missing
  | some m =>
    have same := (found hm).trans hlabel.symm
    rw [List.inj_on_of_nodup_map (nodup_labels h) (mem_nodes m) (mem_nodes n) same]

theorem place_lt_of_parent? {n c : TreeNode t} (hp : c.parent? = some n) : n.place < c.place := by
  obtain ⟨parent, depth, s', hc⟩ := exists_standing h c
  cases hc.parent?_eq_some.mp hp
  obtain ⟨_, _, _, _, _, hplaced⟩ := hc.stands.of_parent
  exact (TreeSpec.mem_placed hplaced).2

theorem root?_ofSpec {n : TreeNode t} : t.root? = some n ↔ n.parent? = none := by
  rw [root?, node?_eq_some]
  constructor
  · intro hplace
    cases hp : n.parent? with
    | none => rfl
    | some p =>
      have hlt := place_lt_of_parent? h hp
      omega
  · intro hnone
    by_contra hne
    obtain ⟨p, hp⟩ := exists_parent h hne
    rw [hnone] at hp
    cases hp

theorem presents_ofSpec : t.Presents s where
  spec := toSpec?_ofSpec h
  nodes := nodes_ofSpec h
  relatives := fun _ _ => mem_children h
  depths := fun _ _ => depth_of_parent? h
  parentsFirst := fun _ _ => place_lt_of_parent? h
  root := fun _ => root?_ofSpec h
  find := fun _ _ => find?_ofSpec h

omit h

/-- A description is accepted if no node of it has a fault, and otherwise refused for the first one in preorder. The
tree of an accepted one loses nothing of it. -/
theorem ofSpec_faithful (s : TreeSpec) : build s = ofSpec s ∧
    ((∃ t, ofSpec s = .ok t) ↔ TreeSpec.Sound s.preorder) ∧
    (∀ e, ofSpec s = .error e ↔ ∃ before node after, s.preorder = before ++ node :: after ∧
      TreeSpec.Sound before ∧ TreeSpec.Fault (before.map (·.label)) node e) ∧
    ∀ t, ofSpec s = .ok t → t.Presents s := by
  refine ⟨build_eq_ofSpec s, ?_, fun e => ?_, fun t h => presents_ofSpec h⟩
  · rw [← TreeSpec.check_eq_ok]
    exact ⟨fun ⟨t, h⟩ => (ofSpec_eq_ok.mp h).1, fun h => ⟨_, ofSpec_eq_ok.mpr ⟨h, rfl⟩⟩⟩
  · rw [← TreeSpec.check_eq_error, ofSpec_eq_error]

/-- In the tree of two moves of one value, the evaluation at the root is kept though it does not count. -/
theorem faithful_tie : ∃ t, ofSpec TreeSpec.tie = .ok t ∧ t.toSpec? = some TreeSpec.tie ∧
    t.nodes.map (TreeNode.specWithin t.size) = TreeSpec.tie.preorder ∧ TreeSpec.Sound TreeSpec.tie.preorder := by
  obtain ⟨-, ⟨accepted, -⟩, -, presents⟩ := ofSpec_faithful TreeSpec.tie
  have presented := presents _ rfl
  exact ⟨_, rfl, presented.spec, presented.nodes, accepted ⟨_, rfl⟩⟩

end GameTree

end Rationale
