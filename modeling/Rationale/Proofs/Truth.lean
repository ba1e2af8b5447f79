import Rationale.Proofs.Filling
import Rationale.Proofs.Tactics

/-!
No explanation states what is not so. A claim is supported when it says of an adjective, a comparison or a group
what the framework evaluates for it. Expansion makes supported claims only, besides placeholders, and tactics
make no claims of their own; so every claim of a finished explanation is supported or a placeholder.
-/

namespace Rationale

variable {N : Type} [Node N]

/-- What the comparison with each member of a group must give for a claim about the group to hold. -/
def Quantifier.asks : Quantifier → Bool
  | .every => true
  | .noneOf => false

/-- The claim says what the framework evaluates. -/
inductive Framework.Supports (F : Framework N) : Claim → Prop
  | value {a : Adjective N} {node : N} {v : Value N} (defined : F.adjective? a.name = some a)
      (evaluated : F.evaluate a.name node = .ok v) : F.Supports (a.claim node v)
  | comparison {name : String} {node other : N} {truth : Bool} (compared : F.compare name node other = .ok truth) :
      F.Supports (Claim.withTruth ⟨Node.label node, .compared name (Node.label other), false⟩ truth)
  | group {comparison group : String} {node : N} {members : List N} {quantifier : Quantifier} {truth : Bool}
      (evaluated : F.evaluateGroup group node = .ok members)
      (compared : ∀ m ∈ members, ∃ holds, F.compare comparison node m = .ok holds)
      (quantified : truth = true ↔ ∀ m ∈ members, F.compare comparison node m = .ok quantifier.asks) :
      F.Supports (Claim.withTruth ⟨Node.label node, .comparedToGroup comparison group quantifier, false⟩ truth)

/-- Every claim among the entries is a placeholder or supported. -/
def Framework.Upholds (F : Framework N) (es : List Entry) : Prop :=
  ∀ c, .claim c ∈ es → c.isUnresolved = true ∨ F.Supports c

namespace Framework.Upholds

variable {F : Framework N}

theorem nil : F.Upholds [] := fun _ h => by cases h

theorem append {es es' : List Entry} (h : F.Upholds es) (h' : F.Upholds es') : F.Upholds (es ++ es') := fun c hc => by
  rcases List.mem_append.mp hc with hc | hc
  · exact h c hc
  · exact h' c hc

theorem flatMap {α : Type} {l : List α} {f : α → List Entry} (h : ∀ a ∈ l, F.Upholds (f a)) :
    F.Upholds (l.flatMap f) := fun c hc => by
  obtain ⟨a, ha, hc⟩ := List.mem_flatMap.mp hc
  exact h a ha c hc

theorem claim {c : Claim} (h : c.isUnresolved = true ∨ F.Supports c) : F.Upholds [.claim c] := fun c' hc => by
  cases List.mem_singleton.mp hc
  exact h

theorem failure {p : Proof} (h : ∃ t, p = .failure t) : F.Upholds p.entries := by
  obtain ⟨t, rfl⟩ := h
  exact fun _ hc => by simp at hc

theorem all {items : List Proof} (h : ∀ p ∈ items, F.Upholds p.entries) : F.Upholds (Proof.all items).entries := by
  rw [Proof.entries_all]
  exact flatMap h

end Framework.Upholds

/-! ### Filled templates -/

/-- The claim that a pointer points at the node it evaluates to. -/
theorem Framework.supports_hop {F : Framework N} {node target : N} {pointer : String}
    (h : F.follow node pointer = .ok target) :
    F.Supports ⟨Node.label node, .has pointer (Node.label target), false⟩ := by
  have hv := follow_ok h
  cases ha : F.adjective? pointer with
  | none =>
    unfold Framework.evaluate Framework.evaluateWithin at hv
    rw [ha] at hv
    cases hv
  | some a =>
    have hname := adjective?_name ha
    have hclaim : a.claim node (.node target) = ⟨Node.label node, .has a.name (Node.label target), false⟩ := by
      unfold Adjective.claim
      split <;> first | rfl | simp_all
    rw [← hname, ← hclaim]
    exact .value (hname ▸ ha) (hname ▸ hv)

/-- The conclusion about a group is open or right. -/
theorem Site.upholds_groupConclusion {s : Site N} {comparison group : String} {positive : Bool} {members : List N}
    (h : s.framework.evaluateGroup group s.node = .ok members) : s.framework.Upholds
      [.claim (s.groupConclusion comparison group positive
        (members.map (s.framework.compare comparison s.node)))] := by
  refine .claim ?_
  unfold Site.groupConclusion
  dsimp only
  split
  · exact Or.inl rfl
  · rename_i hopen
    have compared : ∀ m ∈ members, ∃ holds, s.framework.compare comparison s.node m = .ok holds := by
      intro m hm
      cases hv : s.framework.compare comparison s.node m with
      | ok holds => exact ⟨holds, rfl⟩
      | error e =>
        refine absurd (List.any_eq_true.mpr ⟨_, List.mem_map_of_mem hm, ?_⟩) hopen
        rw [hv]
        rfl
    right
    split
    · refine .group h compared ?_
      rw [beq_iff_eq, List.countP_eq_length, List.forall_mem_map]
      refine forall₂_congr fun m hm => ?_
      obtain ⟨holds, hv⟩ := compared m hm
      cases holds <;> simp [hv, Quantifier.asks]
    · refine .group h compared ?_
      rw [beq_iff_eq, List.countP_eq_zero, List.forall_mem_map]
      refine forall₂_congr fun m hm => ?_
      obtain ⟨holds, hv⟩ := compared m hm
      cases holds <;> simp [hv, Quantifier.asks]

section Fill
variable {s : Site N} (below : ∀ k g, s.framework.Upholds (s.below k g).entries)
  (beyond : ∀ g, s.framework.Upholds (s.beyond g).entries)

include beyond in
theorem Site.upholds_statement (adjective : String) (node : N) :
    s.framework.Upholds (s.statement adjective node).entries := by
  unfold Site.statement
  split
  · exact beyond _
  · split
    · exact .failure ⟨_, rfl⟩
    · rename_i a ha
      have hname := Framework.adjective?_name ha
      split
      · rename_i v hv
        exact .claim (Or.inr (.value (hname ▸ ha) (hname ▸ hv)))
      · exact .failure (Proof.cannotEvaluate_eq _ _ _)

include below beyond

theorem Site.upholds_possession (adjective : String) (via : Option String) (explainFurther forwardPointer : Bool) :
    s.framework.Upholds (s.possession adjective via explainFurther forwardPointer).entries := by
  unfold Site.possession
  cases h : s.framework.lead s.goal via forwardPointer with
  | error failure =>
    rw [Site.target_of_error h]
    exact .failure (Framework.lead_error h)
  | ok lead =>
    rw [Site.target_of_ok h]
    refine .all (List.forall_mem_append.mpr ⟨List.forall_mem_map.mpr fun g _ => below 0 g, fun p hp => ?_⟩)
    rw [List.mem_singleton.mp hp]
    split
    · exact below _ _
    · exact s.upholds_statement beyond _ _

theorem Site.upholds_groupComparison (comparison group : String) (positive : Bool) :
    s.framework.Upholds (s.groupComparison comparison group positive).entries := by
  unfold Site.groupComparison
  split
  · exact beyond _
  · split
    · exact .failure (Proof.cannotEvaluate_eq _ _ _)
    · rename_i members h
      rw [Proof.entries_group]
      refine .append (.append ?_ ?_) (s.upholds_groupConclusion h)
      · split
        · exact below _ _
        · exact .nil
      · rw [List.flatMap_map]
        exact .flatMap fun m _ => below _ _

theorem Site.upholds_recursivePossession (pointer adjective goal : String) :
    s.framework.Upholds (s.recursivePossession pointer adjective goal).entries := by
  have walks := s.framework.walk_walks pointer goal s.levelsBelow [s.node] s.node
  rw [Site.entries_recursivePossession walks]
  refine .append (.flatMap fun hop hhop => ?_) ?_
  · exact .claim (Or.inr (Framework.supports_hop (walks.hops hop hhop)))
  · cases hend : (s.framework.walk pointer goal s.levelsBelow [s.node] s.node).2 with
    | arrived node => exact below _ _
    | exhausted node => exact beyond _
    | undecided failure => exact .failure (walks.failure (Or.inl hend))
    | lost failure => exact .failure (walks.failure (Or.inr hend))
    | circular node => exact .failure ⟨_, rfl⟩

theorem Template.upholds_fill (t : Template) : s.framework.Upholds (Proof.entries? (t.fill s)) := by
  induction t with
  | assume a =>
    rw [Template.fill]
    rcases s.assumption_eq a with h | ⟨text, h⟩
    · rw [h]
      exact .nil
    · rw [h]
      exact fun c hc => by simp at hc
  | possess adjective via explainFurther forwardPointer =>
    rw [Template.fill]
    exact s.upholds_possession below beyond _ _ _ _
  | compare comparison pointer =>
    rw [Template.fill]
    split
    · rename_i failure h
      exact .failure (Framework.follow_error h)
    · exact below _ _
  | compareGroup comparison group positive =>
    rw [Template.fill]
    exact s.upholds_groupComparison below beyond _ _ _
  | compared adjective =>
    rw [Template.fill]
    split
    · exact .failure ⟨_, rfl⟩
    · rw [Proof.entries?_all?]
      refine .flatMap fun p hp => ?_
      simp only [List.mem_cons, List.not_mem_nil, or_false] at hp
      rcases hp with rfl | rfl
      · exact below _ _
      · exact below _ _
  | all items ih =>
    rw [Template.entries?_fill_all]
    exact .flatMap ih
  | branch c ifTrue ifFalse ihTrue ihFalse =>
    rw [Template.fill]
    cases h : s.framework.lead s.goal c.via true with
    | error failure =>
      rw [Site.target_of_error h]
      exact .failure (Framework.lead_error h)
    | ok lead =>
      rw [Site.target_of_ok h]
      dsimp only
      split
      · exact .failure (Proof.cannotEvaluate_eq _ _ _)
      · rw [Proof.entries?_some, Proof.entries_conditional]
        refine .append (.all (List.forall_mem_append.mpr ⟨List.forall_mem_map.mpr fun g _ => below 0 g, ?_⟩)) ?_
        · exact fun p hp => List.mem_singleton.mp hp ▸ below _ _
        · split
          · exact ihTrue
          · exact ihFalse
  | recurse pointer adjective goal =>
    rw [Template.fill]
    exact s.upholds_recursivePossession below beyond _ _ _

end Fill

/-! ### Explanations -/

theorem Framework.upholds_tactics {F : Framework N} {p : Proof} (h : F.Upholds p.entries) (ts : List Tactic) :
    F.Upholds (Tactic.applyAll ts p).entries := by
  intro c hc
  have hmem := (Tactic.stated_applyAll_subperm ts p).subset
    (Proof.mem_stated_claim.mpr (Proof.mem_claims.mpr hc))
  exact h c (Proof.mem_claims.mp (Proof.mem_stated_claim.mp hmem))

theorem Framework.supports_verdict {F : Framework N} {a : Adjective N} {goal : Goal N} {c : Claim}
    (ha : F.adjective? goal.adjective = some a) (h : F.verdict a goal = .ok c) : F.Supports c := by
  have hname := adjective?_name ha
  cases goal with
  | value name node =>
    rw [Framework.verdict] at h
    cases hv : F.evaluate name node with
    | error e => rw [hv] at h; cases h
    | ok v =>
      rw [hv] at h
      cases h
      exact .value (hname ▸ ha) (hname ▸ hv)
  | comparison name node other =>
    rw [Framework.verdict] at h
    cases hv : F.compare name node other with
    | error e => rw [hv] at h; cases h
    | ok truth =>
      rw [hv] at h
      cases h
      exact .comparison hv

theorem Framework.upholds_expand (F : Framework N) (settings : Settings) {beyond : Goal N → Proof}
    (hbeyond : ∀ g, F.Upholds (beyond g).entries) (levels : Nat) : ∀ (skipped level : Nat) (path : List (Goal N))
      (goal : Goal N), F.Upholds (F.expand settings beyond levels skipped level path goal).entries := by
  induction levels with
  | zero =>
    intro skipped level path goal
    rw [Framework.expand]
    exact hbeyond goal
  | succ levels ih =>
    intro skipped level path goal
    cases skipped with
    | succ skipped =>
      rw [Framework.expand]
      exact ih _ _ _ _
    | zero =>
      rw [Framework.expand]
      refine expandGoal_cases (motive := fun p => F.Upholds p.entries) (fun _ => .failure ⟨_, rfl⟩)
        (fun _ _ _ => .failure ⟨_, rfl⟩) (fun _ _ _ _ => .failure (Proof.cannotEvaluate_eq _ _ _)) fun a c ha _ hc => ?_
      refine upholds_tactics ?_ _
      rw [Proof.entries_because]
      exact .append (Template.upholds_fill (fun k g => ih _ _ _ _) hbeyond _) (.claim (Or.inr (supports_verdict ha hc)))

theorem Framework.upholds_explanation (F : Framework N) (settings : Settings) (goal : Goal N) :
    F.Upholds (F.explanation settings goal).entries := by
  unfold Framework.explanation
  rw [Proof.entries_normalize]
  exact upholds_tactics (F.upholds_expand settings (fun g => .claim (Or.inl rfl)) _ _ _ _ _) _

/-- Every claim of an answer is a placeholder or agrees with what the framework of the call evaluates. -/
theorem Explainer.claims_of_explain_supported {E : Explainer N} {node : N} {adjective : String} {other : Option N}
    {overrides : SettingsPatch} {x : Argument} (answered : E.explain node adjective other overrides = .ok x) :
    ∃ F settings, E.resolve overrides = .ok (F, settings) ∧
      ∀ c ∈ x.proof.claims, c.isUnresolved = true ∨ F.Supports c := by
  unfold Explainer.explain at answered
  cases hr : E.resolve overrides with
  | error e => rw [hr] at answered; cases answered
  | ok resolved =>
    obtain ⟨F, settings⟩ := resolved
    rw [hr] at answered
    obtain ⟨a, goal, -, -, rfl⟩ := Framework.explain_eq_ok.mp answered
    refine ⟨F, settings, rfl, fun c hc => ?_⟩
    exact F.upholds_explanation settings goal c (Proof.mem_claims.mp hc)

theorem Coin.claims_supported : ∃ x, Coin.explainer.explain .heads "reverse" = .ok x ∧
    ∃ F settings, Coin.explainer.resolve {} = .ok (F, settings) ∧
      ∀ c ∈ x.proof.claims, c.isUnresolved = true ∨ F.Supports c := by
  obtain ⟨x, answered⟩ : ∃ x, Coin.explainer.explain .heads "reverse" = .ok x := ⟨_, rfl⟩
  exact ⟨x, answered, Explainer.claims_of_explain_supported answered⟩

end Rationale
