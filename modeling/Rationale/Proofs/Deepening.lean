import Rationale.GameTree.Frameworks
import Rationale.Proofs.Depth
import Rationale.Proofs.Lockstep

/-!
Deeper explanations under tactics. Expansions to different depths are an outline and what it outlines: templates give a
premise at both depths or at neither, and only placeholders stand for something else. Tactics other than compactions
keep that, those of the adjectives level by level and those of the framework at the end; so what is resolved at some
depth is claimed at every greater depth.
-/

namespace Rationale

open List

namespace Proof

/-- The first proof outlines the second, and conditions left out leave something of both or of neither. -/
structure Sketches (p q : Proof) : Prop where
  outlines : p.Outlines q
  alike : p.Alike q
  solid : (p.remains fun _ => true) = true

/-- Something is left whichever conditions are left out. -/
def Stands (p : Proof) : Prop := ∀ keep, p.remains keep = true

theorem Sketches.of_stands {p q : Proof} (h : p.Outlines q) (hp : p.Stands) (hq : q.Stands) : p.Sketches q :=
  ⟨h, fun keep => (hp keep).trans (hq keep).symm, hp _⟩

theorem Leaf.outlines_self {p : Proof} (h : p.Leaf) : p.Outlines p := by
  cases h with
  | claim c => exact .claim mem_cons_self
  | assumption t => exact .assumption
  | failure t => exact .failure
  | nothing => exact .conj fun _ h => by cases h

theorem Outlines.cannotEvaluate {N : Type} [Node N] (name : String) (node : N) (e : EvaluationError) (q : Proof) :
    (Proof.cannotEvaluate name node e).Outlines q := by
  obtain ⟨t, ht⟩ := cannotEvaluate_eq name node e
  rw [ht]
  exact .failure

theorem Sketches.failure {p : Proof} (h : ∃ t, p = .failure t) : p.Sketches p := by
  obtain ⟨t, rfl⟩ := h
  exact .of_stands .failure (fun _ => rfl) fun _ => rfl

section Gather
variable {p q : Proof} {xs ys : List Proof} (hp : p = all xs ∨ p = .conj xs) (hq : q = all ys ∨ q = .conj ys)

include hp in
theorem remains_gathered (keep : String → Bool) : p.remains keep = xs.any (remains keep) := by
  rcases hp with rfl | rfl
  · exact remains_all xs
  · exact remains_conj xs

include hp hq

theorem outlines_gathered (each : ∀ x ∈ xs, ∃ y ∈ ys, x.Outlines y) : p.Outlines q := by
  have covered : ∀ x ∈ xs, x.Outlines q := fun x hx => by
    obtain ⟨y, hy, h⟩ := each x hx
    rcases hq with rfl | rfl
    · exact h.mono (covers_all hy)
    · exact h.mono (covers_conj hy)
  rcases hp with rfl | rfl
  · exact .all covered
  · exact .conj covered

end Gather

theorem sketches_ending {p q x y : Proof} {xs ys : List Proof} (hp : p = all (xs ++ [x]) ∨ p = .conj (xs ++ [x]))
    (hq : q = all (ys ++ [y]) ∨ q = .conj (ys ++ [y])) (each : ∀ z ∈ xs, ∃ z' ∈ ys, z.Outlines z')
    (last : x.Outlines y) (hx : x.Stands) (hy : y.Stands) : p.Sketches q := by
  refine .of_stands (outlines_gathered hp hq fun z hz => ?_) (fun keep => ?_) fun keep => ?_
  · rcases mem_append.mp hz with hz | hz
    · obtain ⟨z', hz', h⟩ := each z hz
      exact ⟨z', mem_append_left _ hz', h⟩
    · obtain rfl := mem_singleton.mp hz
      exact ⟨y, mem_concat_self, last⟩
  · rw [remains_gathered hp]
    exact any_eq_true.mpr ⟨x, mem_concat_self, hx keep⟩
  · rw [remains_gathered hq]
    exact any_eq_true.mpr ⟨y, mem_concat_self, hy keep⟩

theorem Sketches.of_row {xs ys : List Proof} (h : Forall₂ Sketches xs ys) :
    (∀ x ∈ xs, ∃ y ∈ ys, x.Outlines y) ∧ ∀ keep, xs.any (remains keep) = ys.any (remains keep) := by
  induction h with
  | nil => exact ⟨fun _ h => (nomatch h), fun _ => rfl⟩
  | @cons x y xs ys hxy _ ih =>
    refine ⟨forall_mem_cons.mpr ⟨⟨y, mem_cons_self, hxy.outlines⟩, fun x hx => ?_⟩, fun keep => ?_⟩
    · obtain ⟨y, hy, h⟩ := ih.1 x hx
      exact ⟨y, mem_cons_of_mem _ hy, h⟩
    · rw [any_cons, any_cons, hxy.alike, ih.2]

theorem all?_eq_some {items : List Proof} (h : items.any (remains fun _ => true) = true) :
    all? items = some (all items) := by
  obtain ⟨p, hp, -⟩ := (Option.any_eq_true _ _).mp ((any_remains_all? items).trans h)
  rw [all, hp, Option.getD_some]

/-- Sketches in a row give a sketch together. -/
theorem sketches_all {xs ys : List Proof} (h : Forall₂ Sketches xs ys) (solid : xs.any (remains fun _ => true) = true) :
    (all xs).Sketches (all ys) := by
  obtain ⟨each, alike⟩ := Sketches.of_row h
  refine ⟨outlines_gathered (.inl rfl) (.inl rfl) each, fun keep => ?_, ?_⟩
  · rw [remains_all, remains_all, alike]
  · rw [remains_all, solid]

theorem sketches_all? {xs ys : List Proof} (h : Forall₂ Sketches xs ys) : Option.Rel Sketches (all? xs) (all? ys) := by
  cases h with
  | nil => exact .none
  | @cons x y xs ys hxy rest =>
    -- Something is left of the first in the row, so neither side comes out empty.
    have row := Forall₂.cons hxy rest
    have solid : (x :: xs).any (remains fun _ => true) = true := any_eq_true.mpr ⟨x, mem_cons_self, hxy.solid⟩
    have solid' : (y :: ys).any (remains fun _ => true) = true := ((Sketches.of_row row).2 _).symm.trans solid
    rw [all?_eq_some solid, all?_eq_some solid']
    exact .some (sketches_all row solid)

theorem Sketches.getD {b b' : Option Proof} (h : Option.Rel Sketches b b') :
    (b.getD nothing).Outlines (b'.getD nothing) ∧ (b.getD nothing).Alike (b'.getD nothing) := by
  cases h with
  | some h => exact ⟨h.outlines, h.alike⟩
  | none => exact ⟨Leaf.nothing.outlines_self, fun _ => rfl⟩

theorem Sketches.because {b b' : Option Proof} (h : Option.Rel Sketches b b') (c : Claim) (d : Nat) (o : Origin) :
    (Proof.because b c d o).Outlines (Proof.because b' c d o) := by
  cases h with
  | some h => exact .implies mem_cons_self h.outlines h.alike
  | none => exact .claim mem_cons_self

theorem Sketches.conditional {c c' : Proof} {b b' : Option Proof} (hc : c.Sketches c') (hb : Option.Rel Sketches b b')
    (owner : String) : (Proof.conditional owner c b).Sketches (.conditional owner c' b') := by
  obtain ⟨selected, selectedAlike⟩ := getD hb
  refine ⟨.conditional mem_cons_self hc.outlines hc.alike selected selectedAlike, fun keep => ?_, ?_⟩
  · rw [remains_conditional, remains_conditional, hc.alike, selectedAlike]
  · rw [remains_conditional, hc.solid]
    rfl

end Proof

variable {N : Type} [Node N]

open Proof (Sketches IsRoot)

/-- What there is below a site is outlined by what there is over more levels. -/
structure Site.Shallower (s : Site N) (levels : Nat) (below : Below N) : Prop where
  levels : s.levelsBelow ≤ levels
  beyond : s.beyond = Goal.unresolved
  outlines : ∀ k g, (s.below k g).Outlines (below k g)
  root : ∀ k g, (s.below k g).IsRoot
  rootBelow : ∀ k g, (below k g).IsRoot

section Roots
variable {s : Site N} (beyond : s.beyond = Goal.unresolved)

include beyond

theorem Site.isRoot_statement (adjective : String) (node : N) : (s.statement adjective node).IsRoot := by
  unfold Site.statement
  split
  · rw [beyond]
    exact Proof.isRoot_claim _
  · split
    · exact Proof.isRoot_failure _
    · split
      · exact Proof.isRoot_claim _
      · exact Proof.isRoot_cannotEvaluate _ _ _

theorem Site.stands_groupComparison (comparison group : String) (positive : Bool) :
    (s.groupComparison comparison group positive).Stands := by
  unfold Site.groupComparison
  split
  · rw [beyond]
    exact fun _ => rfl
  · split
    · exact (Proof.isRoot_cannotEvaluate _ _ _).remains
    · exact fun _ => rfl

theorem Site.isRoot_ending (root : ∀ k g, (s.below k g).IsRoot) {pointer goal : String} {levels : Nat} {visited : List N}
    {node : N} {hops : List (N × N)} {ending : WalkEnd N}
    (h : s.framework.Walks pointer goal levels visited node hops ending) (adjective : String) (k : Nat) :
    (s.ending pointer adjective k ending).IsRoot := by
  cases ending with
  | arrived node => exact root _ _
  | exhausted node =>
    rw [Site.ending, beyond]
    exact Proof.isRoot_claim _
  | undecided failure => exact .inr (h.failure (.inl rfl))
  | lost failure => exact .inr (h.failure (.inr rfl))
  | circular node => exact Proof.isRoot_failure _

end Roots

theorem Site.recursivePossession_gathers {s : Site N} {pointer goal : String} {hops : List (N × N)} {ending : WalkEnd N}
    (h : s.framework.Walks pointer goal s.levelsBelow [s.node] s.node hops ending) (adjective : String) :
    s.recursivePossession pointer adjective goal
        = .all (hops.map (Framework.hopClaim pointer) ++ [s.ending pointer adjective hops.length ending]) ∨
      s.recursivePossession pointer adjective goal
        = .conj (hops.map (Framework.hopClaim pointer) ++ [s.ending pointer adjective hops.length ending]) := by
  unfold Site.recursivePossession
  rw [h.eq_walk]
  cases ending with
  | undecided failure => exact .inr rfl
  | circular node => exact .inr rfl
  | _ => exact .inl rfl

/-! ### Filled templates and expansions -/

section Fill
variable {s : Site N} {levels : Nat} {below : Below N} (h : s.Shallower levels below)

include h

theorem Site.Shallower.sketches (k : Nat) (g : Goal N) : (s.below k g).Sketches (below k g) :=
  .of_stands (h.outlines k g) (h.root k g).remains (h.rootBelow k g).remains

theorem Site.Shallower.deep (hz : s.levelsBelow ≠ 0) : levels ≠ 0 :=
  fun hl => hz (Nat.eq_zero_of_le_zero (hl ▸ h.levels))

theorem Site.Shallower.statement (adjective : String) (node : N) :
    (s.statement adjective node).Sketches ((s.over levels below Goal.unresolved).statement adjective node) := by
  refine .of_stands ?_ (Site.isRoot_statement h.beyond _ _).remains (Site.isRoot_statement rfl _ _).remains
  unfold Site.statement
  by_cases hz : s.levelsBelow = 0
  · rw [if_pos hz, h.beyond]
    exact .placeholder rfl
  · rw [if_neg hz, Site.over_levelsBelow, if_neg (h.deep hz)]
    split
    · exact .failure
    · rename_i a ha
      rw [Site.over_framework, ha]
      dsimp only
      split
      · exact .claim mem_cons_self
      · exact .cannotEvaluate _ _ _ _

theorem Site.Shallower.groupComparison (comparison group : String) (positive : Bool) :
    (s.groupComparison comparison group positive).Sketches
      ((s.over levels below Goal.unresolved).groupComparison comparison group positive) := by
  refine .of_stands ?_ (Site.stands_groupComparison h.beyond _ _ _) (Site.stands_groupComparison rfl _ _ _)
  unfold Site.groupComparison
  by_cases hz : s.levelsBelow = 0
  · rw [if_pos hz, h.beyond]
    exact .placeholder rfl
  · rw [if_neg hz, Site.over_levelsBelow, if_neg (h.deep hz), Site.over_framework, Site.over_node]
    split
    · exact .cannotEvaluate _ _ _ _
    · rename_i members _
      refine .group_map ?_ (fun _ _ => rfl) fun m _ => h.outlines _ _
      rw [Site.over_owner]
      split
      · exact h.outlines _ _
      · exact Proof.Leaf.nothing.outlines_self

theorem Site.Shallower.ending {pointer goal : String} {n : Nat} {visited : List N} {node : N} {hops : List (N × N)}
    {ending : WalkEnd N} (walks : s.framework.Walks pointer goal n visited node hops ending) (adjective : String)
    (k : Nat) : (s.ending pointer adjective k ending).Outlines
      ((s.over levels below Goal.unresolved).ending pointer adjective k ending) := by
  cases ending with
  | arrived node => exact h.outlines _ _
  | exhausted node =>
    rw [Site.ending, h.beyond]
    exact .placeholder rfl
  | undecided failure =>
    obtain ⟨t, rfl⟩ := walks.failure (.inl rfl)
    exact .failure
  | lost failure =>
    obtain ⟨t, rfl⟩ := walks.failure (.inr rfl)
    exact .failure
  | circular node => exact .failure

theorem Site.Shallower.recursivePossession (pointer adjective goal : String) :
    (s.recursivePossession pointer adjective goal).Sketches
      ((s.over levels below Goal.unresolved).recursivePossession pointer adjective goal) := by
  obtain ⟨hops, ending, walks⟩ : ∃ hops ending,
      s.framework.Walks pointer goal s.levelsBelow [s.node] s.node hops ending :=
    ⟨_, _, s.framework.walk_walks _ _ _ _ _⟩
  have stated (rest : List (N × N)) : ∀ x ∈ hops.map (Framework.hopClaim pointer),
      ∃ y ∈ (hops ++ rest).map (Framework.hopClaim pointer), x.Outlines y :=
    forall_mem_map.mpr fun hop hhop =>
      ⟨_, mem_map_of_mem (mem_append_left _ hhop), (Proof.Leaf.claim _).outlines_self⟩
  have gathers := Site.recursivePossession_gathers walks adjective
  have root := Site.isRoot_ending h.beyond h.root walks adjective hops.length
  rcases walks.deepen h.levels with walks' | ⟨last, more, ending', rfl, walks'⟩
  · have gathers' := Site.recursivePossession_gathers (s := s.over levels below Goal.unresolved) walks' adjective
    have root' := Site.isRoot_ending (s := s.over levels below Goal.unresolved) rfl h.rootBelow walks' adjective
      hops.length
    have stated := stated []
    rw [append_nil] at stated
    exact Proof.sketches_ending gathers gathers' stated (h.ending walks adjective _) root.remains root'.remains
  · -- The walk goes on from where its levels ended, and its placeholder gives way to the rest of it.
    have gathers' := Site.recursivePossession_gathers (s := s.over levels below Goal.unresolved) walks' adjective
    have root' := Site.isRoot_ending (s := s.over levels below Goal.unresolved) rfl h.rootBelow walks' adjective
      (hops ++ more).length
    refine Proof.sketches_ending gathers gathers' (stated more) ?_ root.remains root'.remains
    rw [Site.ending, h.beyond]
    exact .placeholder rfl

theorem Site.Shallower.related : s.Related (Option.Rel Sketches) (s.over levels below Goal.unresolved) where
  framework := rfl
  goal := rfl
  failure t := .some (.failure ⟨t, rfl⟩)
  assumption a := by
    change Option.Rel Sketches (s.assumption a) (s.assumption a)
    rcases s.assumption_eq a with ha | ⟨t, ha⟩
    · rw [ha]
      exact .none
    · rw [ha]
      exact .some (.of_stands .assumption (fun _ => rfl) fun _ => rfl)
  asked g := .some (h.sketches 0 g)
  statement _ _ := .some (h.statement _ _)
  groupComparison _ _ _ := .some (h.groupComparison _ _ _)
  recursivePossession _ _ _ := .some (h.recursivePossession _ _ _)
  following asked {p p'} hp := by
    cases hp with
    | some hp =>
      refine .some (Proof.sketches_all (rel_append ?_ (.cons hp .nil)) ?_)
      · rw [forall₂_map_left_iff, forall₂_map_right_iff, forall₂_same]
        exact fun g _ => h.sketches 0 g
      · exact any_eq_true.mpr ⟨p, mem_concat_self, hp.solid⟩
  all? rows each := by
    refine Proof.sketches_all? (rel_filterMap (R := fun row row' => row ∈ rows ∧ row' = row) ?_ ?_)
    · rintro _ _ ⟨hrow, rfl⟩
      exact each _ hrow
    · exact forall₂_same.mpr fun row hrow => ⟨hrow, rfl⟩
  conditional {owner _ _ _ _} hc hb := by
    cases hc with
    | some hc => exact .some (hc.conditional hb owner)

end Fill

/-- No tactic of the framework or of its adjectives merges what is alike. -/
structure Framework.Uncompacted (F : Framework N) : Prop where
  framework : ∀ t ∈ F.tactics, t.isCompaction = false
  adjectives : ∀ a ∈ F.adjectives, ∀ t ∈ a.tactics, t.isCompaction = false

namespace Framework

variable {F : Framework N} {settings : Settings}

theorem isRoot_expand (levels skipped level : Nat) (path : List (Goal N)) (goal : Goal N) :
    (F.expand settings Goal.unresolved levels skipped level path goal).IsRoot := by
  induction levels generalizing skipped level path goal with
  | zero =>
    rw [expand]
    exact Proof.isRoot_claim _
  | succ levels ih =>
    cases skipped with
    | succ skipped =>
      rw [expand]
      exact ih _ _ _ _
    | zero =>
      rw [expand]
      refine expandGoal_cases (fun _ => Proof.isRoot_failure _) (fun _ _ _ => Proof.isRoot_failure _)
        (fun _ _ _ _ => Proof.isRoot_cannotEvaluate _ _ _) fun a c _ _ _ => ?_
      exact IsRoot.applyAll (.inl ⟨_, Proof.establishes_because _ _ _ _⟩) _

theorem outlines_expand (uncompacted : F.Uncompacted) {levels levels' : Nat} (hle : levels ≤ levels')
    (skipped level : Nat) (path : List (Goal N)) (goal : Goal N) :
    (F.expand settings Goal.unresolved levels skipped level path goal).Outlines
      (F.expand settings Goal.unresolved levels' skipped level path goal) := by
  induction levels generalizing levels' skipped level path goal with
  | zero =>
    rw [expand]
    exact .placeholder rfl
  | succ levels ih =>
    obtain ⟨levels', rfl⟩ : ∃ n, levels' = n + 1 := ⟨levels' - 1, by omega⟩
    have hle := Nat.le_of_succ_le_succ hle
    cases skipped with
    | succ skipped =>
      rw [expand, expand]
      exact ih hle _ _ _ _
    | zero =>
      rw [expand, expand]
      refine expandGoal_related (fun _ => .failure) (fun _ _ _ => .failure) (fun _ _ _ _ => .cannotEvaluate _ _ _ _)
        fun a c ha _ _ => ?_
      refine Tactic.outlines_applyAll (uncompacted.adjectives a (adjective?_mem ha))
        (.inl ⟨c, Proof.establishes_because _ _ _ _⟩) (.inl ⟨c, Proof.establishes_because _ _ _ _⟩) ?_
      refine Sketches.because ?_ _ _ _
      let shallow : Site N := { framework := F, settings, goal, level, levelsBelow := levels
                                beyond := Goal.unresolved
                                below := fun skipped g => F.expand settings Goal.unresolved levels skipped
                                  (level + 1 + skipped) (path ++ [goal]) g }
      have shallower : shallow.Shallower levels' fun skipped g =>
          F.expand settings Goal.unresolved levels' skipped (level + 1 + skipped) (path ++ [goal]) g :=
        { levels := hle, beyond := rfl, outlines := fun k g => ih hle k _ _ g
          root := fun k g => isRoot_expand _ _ _ _ _, rootBelow := fun k g => isRoot_expand _ _ _ _ _ }
      exact Template.fill_related shallower.related a.template

/-! ### Explanations -/

theorem outlines_explanation (uncompacted : F.Uncompacted) (settings : Settings) {d d' : Nat} (hle : d ≤ d')
    (goal : Goal N) : (F.explanation { settings with explanationDepth := d } goal).Outlines
      (F.explanation { settings with explanationDepth := d' } goal) := by
  unfold Framework.explanation
  rw [F.expand_explanationDepth settings _ d, F.expand_explanationDepth settings _ d']
  refine .transformUp Proof.lockstep_normalStep ?_
  exact Tactic.outlines_applyAll uncompacted.framework (isRoot_expand _ _ _ _ _) (isRoot_expand _ _ _ _ _)
    (outlines_expand uncompacted hle 0 1 [] goal)

/-- Where there is an answer at some depth, there is one at every greater depth that makes every claim of the first one
but its placeholders, whatever tactics other than compactions the framework and its adjectives have. -/
theorem explain_keeps_resolved (uncompacted : F.Uncompacted) (settings : Settings) {d d' : Nat} (hle : d ≤ d')
    {node : N} {adjective : String} {other : Option N} {x : Argument}
    (answered : F.explain { settings with explanationDepth := d } node adjective other = .ok x) :
    ∃ x', F.explain { settings with explanationDepth := d' } node adjective other = .ok x' ∧
      ∀ c ∈ x.proof.claims, c.isUnresolved = false → c ∈ x'.proof.claims := by
  obtain ⟨a, goal, ha, hgoal, rfl⟩ := explain_eq_ok.mp answered
  have outlined := outlines_explanation uncompacted settings hle goal
  exact ⟨_, explain_eq_ok.mpr ⟨a, goal, ha, hgoal, rfl⟩, fun c hc resolved => outlined.claims hc resolved⟩

end Framework

/-- Every kind of tactic but a compaction. -/
def Suit.shortening : List Tactic :=
  [.substituteQuantitative "so it is", .skipCondition [], .skipQuantitative, .onlyRelevant (.top 1)]

/-- What is said of clubs at depth 1 is said at depth 3. -/
theorem Suit.keeps_resolved_shortened :
    ∃ x x', (framework shortening).explain { explanationDepth := 1 } clubs "best" = .ok x ∧
      (framework shortening).explain { explanationDepth := 3 } clubs "best" = .ok x' ∧
      (∀ c ∈ x.proof.claims, c.isUnresolved = false → c ∈ x'.proof.claims) ∧
      ⟨"clubs", .is "best", true⟩ ∈ x'.proof.claims := by
  have uncompacted : (framework shortening).Uncompacted := by
    refine ⟨by decide, fun a ha t ht => ?_⟩
    rw [tactics_eq_nil _ a ha] at ht
    cases ht
  obtain ⟨x, answered⟩ : ∃ x, (framework shortening).explain { explanationDepth := 1 } clubs "best" = .ok x := ⟨_, rfl⟩
  obtain ⟨x', answered', kept⟩ := Framework.explain_keeps_resolved uncompacted {} (by decide : 1 ≤ 3) answered
  refine ⟨x, x', answered, answered', kept, kept _ ?_ rfl⟩
  cases answered
  decide +kernel

namespace Minimax

variable {t : GameTree}

theorem lowlevel_uncompacted : (lowlevel (t := t)).Uncompacted where
  framework := by simp [lowlevel]
  adjectives := by simp [lowlevel]

theorem highlevel_uncompacted : (highlevel (t := t)).Uncompacted where
  framework := by simp [highlevel, Tactic.isCompaction]
  adjectives := by simp [highlevel, Tactic.isCompaction]

end Minimax

end Rationale
