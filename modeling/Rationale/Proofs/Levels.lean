import Rationale.Proofs.Asks
import Rationale.Proofs.Conclusions

/-!
Levels. A conclusion is drawn on the level of the goal it answers, a comparison with a group on the level of its
members, and what supports a conclusion is deeper than it. Tactics only take parts away and lift others, so this holds
of a finished explanation as it does of its expansion.
-/

namespace Rationale

namespace Proof

/-- The level of a node: that of its conclusion, or of its members. -/
def level? : Proof → Option Nat
  | .implies _ _ d _ => some d
  | .group _ _ _ _ d _ => some d
  | _ => none

/-- The lowest level for the parts of a node that is itself on a level from `low` on. -/
def floor (low : Nat) : Proof → Nat
  | .implies _ _ d _ => d + 1
  | .group _ _ _ _ d _ => d
  | _ => low

/-- The levels are `low` to `high`, they rise below every conclusion and do not fall below a group. -/
inductive Within (high : Nat) : Nat → Proof → Prop
  | node {low : Nat} {p : Proof} (own : ∀ d ∈ p.level?, low ≤ d ∧ d ≤ high)
      (parts : ∀ q ∈ p.children, Within high (p.floor low) q) : Within high low p

@[simp] theorem level?_mapChildren (f : Proof → Proof) (p : Proof) : (mapChildren f p).level? = p.level? := by
  cases p <;> simp [level?]

@[simp] theorem floor_mapChildren (f : Proof → Proof) (low : Nat) (p : Proof) :
    (mapChildren f p).floor low = p.floor low := by
  cases p <;> simp [floor]

theorem floor_of_level {p : Proof} (h : p.level? = none) (low : Nat) : p.floor low = low := by
  cases p with
  | implies p c d o => cases h
  | group c membership members n d o => cases h
  | _ => rfl

theorem floor_mono {low low' : Nat} (h : low ≤ low') (p : Proof) : p.floor low ≤ p.floor low' := by
  cases p with
  | implies p c d o => exact Nat.le_refl _
  | group c membership members n d o => exact Nat.le_refl _
  | _ => exact h

namespace Within

variable {high low : Nat} {p : Proof}

theorem iff : p.Within high low ↔
    (∀ d ∈ p.level?, low ≤ d ∧ d ≤ high) ∧ ∀ q ∈ p.children, q.Within high (p.floor low) :=
  ⟨fun ⟨own, parts⟩ => ⟨own, parts⟩, fun ⟨own, parts⟩ => .node own parts⟩

theorem low_le_floor (h : p.Within high low) : low ≤ p.floor low := by
  have own := (iff.mp h).1
  cases p with
  | implies p c d o => exact Nat.le_succ_of_le (own d rfl).1
  | group c membership members n d o => exact (own d rfl).1
  | _ => exact Nat.le_refl _

theorem mono {low' : Nat} (hle : low ≤ low') (h : p.Within high low') : p.Within high low := by
  induction p using induct_children generalizing low low' with
  | step p ih =>
    obtain ⟨own, parts⟩ := iff.mp h
    refine .node (fun d hd => ⟨Nat.le_trans hle (own d hd).1, (own d hd).2⟩) fun q hq => ?_
    exact ih q hq (floor_mono hle p) (parts q hq)

/-- Every part is on levels of its own, none of them above those of the proof. -/
theorem part (h : p.Within high low) {q : Proof} (hq : q ∈ p.preorder) : ∃ low' ≥ low, q.Within high low' := by
  induction p using induct_children generalizing low with
  | step p ih =>
    rw [preorder_eq_children] at hq
    rcases List.mem_cons.mp hq with rfl | hq
    · exact ⟨low, Nat.le_refl _, h⟩
    · obtain ⟨c, hc, hq⟩ := List.mem_flatMap.mp hq
      obtain ⟨low', hle, hpart⟩ := ih c hc ((iff.mp h).2 c hc) hq
      exact ⟨low', Nat.le_trans h.low_le_floor hle, hpart⟩

theorem levels (h : p.Within high low) : ∀ q ∈ p.preorder, ∀ d ∈ q.level?, low ≤ d ∧ d ≤ high := by
  intro q hq d hd
  obtain ⟨low', hle, hpart⟩ := h.part hq
  obtain ⟨hlow, hhigh⟩ := (iff.mp hpart).1 d hd
  exact ⟨Nat.le_trans hle hlow, hhigh⟩

/-- What is inside a node is on levels from its floor on. -/
theorem nested (h : p.Within high low) {q : Proof} (hq : q ∈ p.preorder) :
    ∀ c ∈ q.children, ∀ r ∈ c.preorder, ∀ d ∈ r.level?, q.floor low ≤ d := by
  intro c hc r hr d hd
  obtain ⟨low', hle, hpart⟩ := h.part hq
  exact Nat.le_trans (floor_mono hle q) (((iff.mp hpart).2 c hc).levels r hr d hd).1

end Within

/-- A branch of a proof: its nodes from the root to a leaf. -/
inductive Branch : Proof → List Proof → Prop
  | leaf {p : Proof} (h : p.children = []) : Branch p [p]
  | step {p q : Proof} {path : List Proof} (hq : q ∈ p.children) (h : Branch q path) : Branch p (p :: path)

def isImplication : Proof → Bool
  | .implies _ _ _ _ => true
  | _ => false

/-- On a branch there are no more implications than levels. -/
theorem Within.countP_branch {high low : Nat} {p : Proof} {path : List Proof} (h : p.Within high low)
    (hpath : p.Branch path) : path.countP isImplication ≤ high + 1 - low := by
  induction hpath generalizing low with
  | @leaf p hleaf =>
    have plain : p.isImplication = false := by
      cases p with
      | implies p c d o => cases hleaf
      | _ => rfl
    rw [List.countP_cons, plain]
    exact Nat.zero_le _
  | @step p q path hq hpath ih =>
    obtain ⟨own, parts⟩ := Within.iff.mp h
    have hrest := ih (parts q hq)
    have hfloor := h.low_le_floor
    rw [List.countP_cons]
    cases p with
    | implies p c d o =>
      have hd := own d rfl
      simp only [floor, isImplication, ↓reduceIte] at hrest ⊢
      omega
    | _ =>
      simp only [isImplication, Bool.false_eq_true, ↓reduceIte] at hrest ⊢
      omega

/-! ### Passes and tactics -/

namespace Within

variable {high low : Nat} {p : Proof}

/-- A node that has no level itself. -/
theorem unlevelled (h : p.level? = none) (parts : ∀ q ∈ p.children, q.Within high low) : p.Within high low := by
  refine .node (fun d hd => ?_) ?_
  · rw [h] at hd
    cases hd
  · rwa [floor_of_level h]

theorem leaf (h : p.level? = none) (leaf : p.children = []) : p.Within high low :=
  .unlevelled h fun q hq => by rw [leaf] at hq; cases hq

theorem conjuncts (h : p.Within high low) : ∀ q ∈ p.conjuncts, q.Within high low := by
  cases p with
  | conj items => exact (iff.mp h).2
  | _ => exact List.forall_mem_singleton.mpr h

theorem all? {items : List Proof} (h : ∀ p ∈ items, p.Within high low) : ∀ p ∈ Proof.all? items, p.Within high low := by
  have opened : ∀ p ∈ items.flatMap Proof.conjuncts, p.Within high low := by
    intro p hp
    obtain ⟨q, hq, hp⟩ := List.mem_flatMap.mp hp
    exact (h q hq).conjuncts p hp
  intro p hp
  unfold Proof.all? at hp
  split at hp
  · cases hp
  · rename_i q hq
    cases hp
    exact opened _ (hq ▸ List.mem_singleton_self _)
  · cases hp
    exact .unlevelled rfl opened

theorem getD {branch : Option Proof} (h : ∀ p ∈ branch, p.Within high low) :
    (branch.getD nothing).Within high low := by
  cases branch with
  | none => exact .leaf rfl rfl
  | some p => exact h p rfl

theorem all {items : List Proof} (h : ∀ p ∈ items, p.Within high low) : (Proof.all items).Within high low :=
  getD (all? h)

theorem mapChildren {f : Proof → Proof} (own : ∀ d ∈ p.level?, low ≤ d ∧ d ≤ high)
    (parts : ∀ q ∈ p.children, (f q).Within high (p.floor low)) : (Proof.mapChildren f p).Within high low := by
  refine .node (by rwa [level?_mapChildren]) ?_
  rw [floor_mapChildren, children_mapChildren]
  exact List.forall_mem_map.mpr parts

theorem transformUp {f : Proof → Proof} (step : ∀ {low p}, p.Within high low → (f p).Within high low)
    (h : p.Within high low) : (p.transformUp f).Within high low := by
  induction p using induct_children generalizing low with
  | step p ih =>
    obtain ⟨own, parts⟩ := iff.mp h
    rw [transformUp_eq]
    exact step (mapChildren own fun q hq => ih q hq (parts q hq))

theorem rewrite {f : Proof → Option Proof} (replaced : ∀ {low p q}, q ∈ f p → q.Within high low)
    (h : p.Within high low) : (p.rewrite f).Within high low := by
  induction p using induct_children generalizing low with
  | step p ih =>
    obtain ⟨own, parts⟩ := iff.mp h
    rw [rewrite_eq]
    cases hf : f p with
    | some q => exact replaced hf
    | none => exact mapChildren own fun q hq => ih q hq (parts q hq)

theorem normalStep (h : p.Within high low) : (Proof.normalStep p).Within high low := by
  have parts := (iff.mp h).2
  cases p with
  | conj items => exact all fun q hq => parts q (List.mem_filter.mp hq).1
  | implies p c d o =>
    rw [Proof.normalStep]
    split
    · exact .leaf rfl rfl
    · exact h
  | conditional owner c branch =>
    have hbranch : ∀ q ∈ branch.filter (!·.isEmpty), q.Within high low := by
      intro q hq
      exact parts q (List.mem_cons_of_mem _ (Option.mem_toList.mpr (Option.eq_some_of_filter_eq_some hq)))
    rw [Proof.normalStep]
    split
    · exact getD hbranch
    · refine .unlevelled rfl (List.forall_mem_cons.mpr ⟨parts c List.mem_cons_self, fun q hq => ?_⟩)
      exact hbranch q (Option.mem_toList.mp hq)
  | _ => exact h

theorem skipConditionStep (exceptOn : List String) (h : p.Within high low) :
    (Proof.skipConditionStep exceptOn p).Within high low := by
  unfold Proof.skipConditionStep
  split
  · split
    · exact h
    · exact getD fun q hq => (iff.mp h).2 q (List.mem_cons_of_mem _ (Option.mem_toList.mpr hq))
  · exact h

theorem dedupStep (h : p.Within high low) : (Proof.dedupStep p).Within high low := by
  unfold Proof.dedupStep
  split
  · exact .unlevelled rfl fun q hq => (iff.mp h).2 q ((withoutRepeatedAssumptions_sublist _).subset hq)
  · exact h

/-- A group with members that come of the members before, with their proofs. -/
theorem group {c : Claim} {membership : Option Proof} {members members' : List (Member Proof)} {n n' d : Nat}
    {o : Origin} (sub : members'.map (·.proof) ⊆ members.map (·.proof))
    (h : (Proof.group c membership members n d o).Within high low) :
    (Proof.group c membership members' n' d o).Within high low := by
  obtain ⟨own, parts⟩ := iff.mp h
  refine .node own fun q hq => ?_
  rcases List.mem_append.mp hq with hq | hq
  · exact parts q (List.mem_append_left _ hq)
  · exact parts q (List.mem_append_right _ (sub hq))

theorem onlyRelevantStep (mode : RelevanceMode) (h : p.Within high low) :
    (Proof.onlyRelevantStep mode p).Within high low := by
  cases p with
  | group c membership members n d o => exact group (relevant_subset _ _ _) h
  | _ => exact h

theorem compactStep (h : p.Within high low) : (Proof.compactStep p).Within high low := by
  cases p with
  | conj items =>
    refine .unlevelled rfl (List.forall_mem_map.mpr fun x hx => ?_)
    have hitem := (iff.mp h).2 x.1 (tallied_subset items (List.mem_map_of_mem hx))
    rw [repeated]
    split
    · exact .unlevelled rfl (List.forall_mem_singleton.mpr hitem)
    · exact hitem
  | group c membership members n d o => exact group (folded_subset members) h
  | _ => exact h

theorem bareQuantity {q : Proof} (hq : q ∈ bareQuantity? p) : q.Within high low := by
  unfold bareQuantity? at hq
  split at hq
  · split at hq
    · cases hq
      exact .leaf rfl rfl
    · cases hq
  · cases hq

theorem substituteQuantities (phrase : String) (h : p.Within high low) :
    (p.substituteQuantities phrase).Within high low := by
  have inside {p : Proof} (h : p.Within high low) : (substituteQuantities.inside phrase p).Within high low := by
    refine transformUp dedupStep (rewrite (fun hr => ?_) h)
    split at hr
    · cases hr
      exact .leaf rfl rfl
    · cases hr
  unfold Proof.substituteQuantities
  split
  · split
    · refine .node (iff.mp h).1 (List.forall_mem_singleton.mpr ?_)
      exact .leaf rfl rfl
    · exact inside h
  · exact inside h

end Within

end Proof

theorem Tactic.within_apply (t : Tactic) {high low : Nat} {p : Proof} (h : p.Within high low) :
    (t.apply p).Within high low := by
  refine Proof.Within.transformUp Proof.Within.normalStep ?_
  cases t with
  | onlyRelevant mode => exact h.transformUp (Proof.Within.onlyRelevantStep mode)
  | skipQuantitative => exact h.rewrite Proof.Within.bareQuantity
  | substituteQuantitative phrase => exact h.substituteQuantities phrase
  | compactSame => exact h.transformUp Proof.Within.compactStep
  | skipCondition exceptOn => exact h.transformUp (Proof.Within.skipConditionStep exceptOn)

theorem Tactic.within_applyAll (ts : List Tactic) {high low : Nat} {p : Proof} (h : p.Within high low) :
    (Tactic.applyAll ts p).Within high low := by
  induction ts generalizing p with
  | nil => exact h
  | cons t ts ih => exact ih (t.within_apply h)

/-! ### Templates and expansions -/

variable {N : Type} [Node N]

section Fill
variable {s : Site N} {high : Nat} (room : s.level + s.levelsBelow = high)
  (below : ∀ k g, (s.below k g).Within high (s.level + 1)) (beyond : ∀ g, (s.beyond g).Within high (s.level + 1))

theorem Proof.within_failure {p : Proof} {low : Nat} (failure : ∃ text, p = .failure text) : p.Within high low := by
  obtain ⟨text, rfl⟩ := failure
  exact .leaf rfl rfl

include beyond

theorem Site.within_statement (adjective : String) (node : N) :
    (s.statement adjective node).Within high (s.level + 1) := by
  unfold Site.statement
  split
  · exact beyond _
  · split
    · exact .leaf rfl rfl
    · split
      · exact .leaf rfl rfl
      · exact Proof.within_failure (Proof.cannotEvaluate_eq _ _ _)

include below

theorem Site.within_recursivePossession (pointer adjective goal : String) :
    (s.recursivePossession pointer adjective goal).Within high (s.level + 1) := by
  have walks := s.framework.walk_walks pointer goal s.levelsBelow [s.node] s.node
  unfold Site.recursivePossession
  generalize s.framework.walk pointer goal s.levelsBelow [s.node] s.node = walk at walks ⊢
  obtain ⟨hops, ending⟩ := walk
  dsimp only at walks ⊢
  have said {p : Proof} (h : p.Within high (s.level + 1)) :
      ∀ q ∈ hops.map (Framework.hopClaim pointer) ++ [p], q.Within high (s.level + 1) := by
    refine List.forall_mem_append.mpr ⟨List.forall_mem_map.mpr fun hop _ => ?_, List.forall_mem_singleton.mpr h⟩
    exact .leaf rfl rfl
  cases ending with
  | arrived node => exact .all (said (below _ _))
  | exhausted node => exact .all (said (beyond _))
  | lost failure => exact .all (said (Proof.within_failure (walks.failure (.inr rfl))))
  | undecided failure => exact .unlevelled rfl (said (Proof.within_failure (walks.failure (.inl rfl))))
  | circular node => exact .unlevelled rfl (said (.leaf rfl rfl))

include room

theorem Site.within_groupComparison (comparison group : String) (positive : Bool) :
    (s.groupComparison comparison group positive).Within high (s.level + 1) := by
  unfold Site.groupComparison
  split
  · exact beyond _
  · rename_i hlevels
    split
    · exact Proof.within_failure (Proof.cannotEvaluate_eq _ _ _)
    · refine .node (fun d hd => ?_) fun q hq => ?_
      · cases hd
        omega
      · rcases List.mem_append.mp hq with hq | hq
        · split at hq
          · cases List.mem_singleton.mp hq
            exact below _ _
          · cases hq
        · rw [List.map_map] at hq
          obtain ⟨m, -, rfl⟩ := List.mem_map.mp hq
          exact below _ _

/-- Whatever a template puts together from what is on the next level is on the next level. -/
theorem Template.within_fill (t : Template) : ∀ p ∈ t.fill s, p.Within high (s.level + 1) := by
  -- A site is related to itself by what is to be shown, so it is enough to look at what templates put together.
  have related : s.Related (fun premise _ => ∀ p ∈ premise, p.Within high (s.level + 1)) s := {
    framework := rfl
    goal := rfl
    failure := fun text p hp => by
      cases hp
      exact .leaf rfl rfl
    assumption := fun a p hp => by
      rcases s.assumption_eq a with h | ⟨text, h⟩
      · rw [h] at hp
        cases hp
      · rw [h] at hp
        cases hp
        exact .leaf rfl rfl
    asked := fun g p hp => by
      cases hp
      exact below 0 g
    statement := fun adjective node p hp => by
      cases hp
      exact s.within_statement beyond adjective node
    groupComparison := fun comparison group positive p hp => by
      cases hp
      exact s.within_groupComparison room below beyond comparison group positive
    recursivePossession := fun pointer adjective goal p hp => by
      cases hp
      exact s.within_recursivePossession below beyond pointer adjective goal
    following := fun asked p _ h q hq => by
      cases hq
      refine .all (List.forall_mem_append.mpr ⟨List.forall_mem_map.mpr fun g _ => below 0 g, ?_⟩)
      exact List.forall_mem_singleton.mpr (h p rfl)
    all? := fun rows h => Proof.Within.all? fun p hp => by
      obtain ⟨row, hrow, hp⟩ := List.mem_filterMap.mp hp
      exact h row hrow p hp
    conditional := fun hc hbranch p hp => by
      cases hp
      refine .unlevelled rfl (List.forall_mem_cons.mpr ⟨hc _ rfl, fun q hq => ?_⟩)
      exact hbranch q (Option.mem_toList.mp hq) }
  exact Template.fill_related related t

end Fill

namespace Framework

variable {F : Framework N} {settings : Settings}

/-- A goal with `levels` levels from its own on is expanded between its own and the last. -/
theorem within_expand {beyond : Goal N → Proof} {high : Nat} (hbeyond : ∀ g low, (beyond g).Within high low)
    {levels skipped level : Nat} (path : List (Goal N)) (goal : Goal N)
    (counted : level + levels = high + 1 + skipped) :
    (F.expand settings beyond levels skipped level path goal).Within high level := by
  -- Going down takes one of the levels and adds one to the level; a level that is skipped was added before.
  induction levels generalizing skipped level path goal with
  | zero =>
    rw [expand]
    exact hbeyond goal level
  | succ levels ih =>
    cases skipped with
    | succ skipped =>
      rw [expand]
      exact ih path goal (by omega)
    | zero =>
      rw [expand]
      refine expandGoal_cases (fun _ => .leaf rfl rfl) (fun _ _ _ => .leaf rfl rfl)
        (fun _ _ _ _ => Proof.within_failure (Proof.cannotEvaluate_eq _ _ _)) fun a c _ _ _ => ?_
      refine Tactic.within_applyAll _ ?_
      have below : ∀ k g, (F.expand settings beyond levels k (level + 1 + k) (path ++ [goal]) g).Within high
          (level + 1) := fun k g => .mono (Nat.le_add_right _ _) (ih _ _ (by omega))
      have premise := Template.within_fill (t := a.template) (s := {
        framework := F, settings, goal, level, levelsBelow := levels, beyond
        below := fun skipped g =>
          F.expand settings beyond levels skipped (level + 1 + skipped) (path ++ [goal]) g })
        (by dsimp only; omega) below fun g => hbeyond g _
      unfold Proof.because
      split
      · rename_i p hp
        refine .node (fun d hd => ?_) (List.forall_mem_singleton.mpr (premise p hp))
        cases hd
        omega
      · exact .leaf rfl rfl

theorem within_explanation (goal : Goal N) : (F.explanation settings goal).Within settings.explanationDepth 1 := by
  refine Proof.Within.transformUp Proof.Within.normalStep (Tactic.within_applyAll _ ?_)
  exact within_expand (fun g low => .leaf rfl rfl) [] goal (Nat.add_comm _ _)

/-- A conclusion at the root is on the first level. -/
theorem level_explanation {goal : Goal N} {premise : Proof} {c : Claim} {d : Nat} {o : Origin}
    (root : F.explanation settings goal = .implies premise c d o) : d = 1 := by
  rcases Nat.eq_zero_or_pos settings.explanationDepth with shallow | deep
  · rw [explanation_unresolved shallow, Goal.unresolved] at root
    cases root
  · obtain ⟨levels, hlevels⟩ := Nat.exists_eq_add_one.mpr deep
    cases ha : F.adjective? goal.adjective with
    | none =>
      rw [explanation, hlevels, expand, expandGoal, ha] at root
      dsimp only [Proof.unknownAdjective] at root
      rw [Tactic.applyAll_leaf _ (.inr ⟨_, rfl⟩)] at root
      cases root
    | some a =>
      cases hv : F.verdict a goal with
      | error e =>
        obtain ⟨text, htext⟩ := Proof.cannotEvaluate_eq goal.adjective goal.node e
        rw [explanation_undecided goal ha deep hv, htext] at root
        cases root
      | ok claim =>
        have h : (F.explanation settings goal).EstablishesOn claim 1 := establishesOn_explanation goal ha deep hv
        rw [root] at h
        cases h
        rfl

end Framework

/-! ### Explanations -/

/-- What holds of the levels of a finished explanation with `depth` levels. -/
structure Proof.Levelled (depth : Nat) (p : Proof) : Prop where
  bounds : ∀ q ∈ p.preorder, ∀ d ∈ q.level?, 1 ≤ d ∧ d ≤ depth
  root : ∀ premise c d o, p = .implies premise c d o → d = 1
  premise : ∀ premise c d o, .implies premise c d o ∈ p.preorder →
    ∀ q ∈ premise.preorder, ∀ d' ∈ q.level?, d + 1 ≤ d'
  group : ∀ c membership members omitted d o, .group c membership members omitted d o ∈ p.preorder →
    ∀ part ∈ (Proof.group c membership members omitted d o).children, ∀ q ∈ part.preorder, ∀ d' ∈ q.level?, d ≤ d'
  branches : ∀ path, p.Branch path → path.countP isImplication ≤ depth

theorem Proof.Within.levelled {depth : Nat} {p : Proof} (h : p.Within depth 1)
    (root : ∀ premise c d o, p = .implies premise c d o → d = 1) : p.Levelled depth where
  bounds := h.levels
  root := root
  premise := fun premise _ _ _ hq => h.nested hq premise (List.mem_singleton_self _)
  group := fun _ _ _ _ _ _ hq => h.nested hq
  branches := fun _ hpath => h.countP_branch hpath

end Rationale
