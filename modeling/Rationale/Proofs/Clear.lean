import Rationale.Proofs.Asks
import Rationale.Proofs.Tactics

/-!
Explanations that go through. A template that finds a value wherever it needs one says nothing of its own but
assumptions and conclusions, and otherwise what the goals say that it asks for. Where these goals always have a
lower rank, no goal comes up inside itself, and as many levels as the rank are enough to leave nothing open.
-/

namespace Rationale

variable {N : Type} [Node N]

/-- A template finds all the values it needs, and follows no pointer for more than one step. -/
inductive Template.Runs (F : Framework N) (goal : Goal N) : Template → Prop
  | assume (a : Assumption) : Template.Runs F goal (.assume a)
  | possess {adjective : String} {via : Option String} {forwardPointer : Bool} {lead : List (Goal N) × N}
      (found : F.lead goal via forwardPointer = .ok lead) :
      Template.Runs F goal (.possess adjective via true forwardPointer)
  | compare {comparison pointer : String} {target : N} (found : F.follow goal.node pointer = .ok target) :
      Template.Runs F goal (.compare comparison pointer)
  | compareGroup {comparison group : String} {positive : Bool} {members : List N}
      (found : F.evaluateGroup group goal.node = .ok members)
      (compared : ∀ m ∈ members, ∃ holds, F.compare comparison goal.node m = .ok holds) :
      Template.Runs F goal (.compareGroup comparison group positive)
  | compared {adjective : String} {other : N} (found : goal.other? = some other) :
      Template.Runs F goal (.compared adjective)
  | all {items : List Template} (h : ∀ t ∈ items, Template.Runs F goal t) : Template.Runs F goal (.all items)
  | branch {c : Condition} {lead : List (Goal N) × N} {value : Value N} {ifTrue ifFalse : Template}
      (found : F.lead goal c.via true = .ok lead) (decided : F.evaluate c.adjective lead.2 = .ok value)
      (chosen : Template.Runs F goal (if value.isLiteral c.expected then ifTrue else ifFalse)) :
      Template.Runs F goal (.branch c ifTrue ifFalse)

omit [Node N] in
/-- No member is left open where every comparison has a verdict. -/
theorem any_open_eq_false {compare : N → Except EvaluationError Bool} {members : List N}
    (h : ∀ m ∈ members, ∃ holds, compare m = .ok holds) : ((members.map compare).any fun v => !v.isOk) = false := by
  refine List.any_eq_false.mpr (List.forall_mem_map.mpr fun m hm => ?_)
  obtain ⟨holds, hv⟩ := h m hm
  rw [hv]
  exact Bool.false_ne_true

/-- The conclusion about a group whose comparisons all have a verdict is not open. -/
theorem Site.groupConclusion_resolved {s : Site N} {comparison group : String} {positive : Bool} {members : List N}
    (h : ∀ m ∈ members, ∃ holds, s.framework.compare comparison s.node m = .ok holds) :
    (s.groupConclusion comparison group positive
      (members.map (s.framework.compare comparison s.node))).isUnresolved = false := by
  unfold Site.groupConclusion
  rw [any_open_eq_false h]
  cases positive <;> rfl

section Fill
variable {s : Site N} {P : Entry → Prop} (closed : ∀ e, e.isFailure = false → e.isUnresolved = false → P e)

omit [Node N] in
theorem Site.forall_mem_asked {goals : List (Goal N)}
    (below : ∀ ask ∈ Goal.asked goals, ∀ e ∈ (s.below ask.1 ask.2).entries, P e) :
    ∀ e ∈ (goals.map (s.below 0)).flatMap Proof.entries, P e := by
  intro e he
  rw [List.flatMap_map] at he
  obtain ⟨g, hg, he⟩ := List.mem_flatMap.mp he
  exact below (0, g) (List.mem_map_of_mem hg) e he

include closed

/-- What such a template says holds if what it asks for holds. -/
theorem Template.Runs.entries {t : Template} (h : t.Runs s.framework s.goal)
    (below : ∀ ask ∈ t.asks s.framework s.goal s.levelsBelow, ∀ e ∈ (s.below ask.1 ask.2).entries, P e)
    (beyond : s.levelsBelow = 0 → ∀ g, ∀ e ∈ (s.beyond g).entries, P e) :
    ∀ e ∈ Proof.entries? (t.fill s), P e := by
  induction h with
  | assume a =>
    rw [Template.fill]
    rcases s.assumption_eq a with h | ⟨text, h⟩
    · rw [h]
      exact fun _ he => by cases he
    · rw [h]
      exact List.forall_mem_singleton.mpr (closed _ rfl rfl)
  | @possess adjective via forwardPointer lead found =>
    rw [Template.asks, found] at below
    rw [Template.fill, Site.possession, Site.target_of_ok found]
    dsimp only at below ⊢
    rw [if_pos rfl] at below ⊢
    have asked := Site.forall_mem_asked below
    rw [List.map_append] at asked
    rw [Proof.entries?_some, Proof.entries_all]
    exact asked
  | @compare comparison pointer target found =>
    rw [Template.asks, found] at below
    rw [Template.fill, Site.node, found]
    exact below _ (List.mem_singleton_self _)
  | @compareGroup comparison group positive members found compared =>
    rw [Template.fill, Site.groupComparison]
    -- Without levels below, nothing is made of the group but what stands for it beyond them.
    by_cases hz : s.levelsBelow = 0
    · rw [if_pos hz]
      exact beyond hz _
    · rw [Template.asks, if_neg hz, found] at below
      have asked := Site.forall_mem_asked below
      rw [List.map_append, List.flatMap_append] at asked
      obtain ⟨hgroup, hmembers⟩ := List.forall_mem_append.mp asked
      rw [if_neg hz, Site.node, found]
      dsimp only
      rw [Proof.entries?_some, Proof.entries_group, List.flatMap_map]
      rw [List.map_map, List.flatMap_map] at hmembers
      refine List.forall_mem_append.mpr ⟨List.forall_mem_append.mpr ⟨?_, hmembers⟩, ?_⟩
      -- The members of a group are explained unless it is the group that is explained here.
      · by_cases hne : s.goal.adjective ≠ group
        · rw [if_pos hne, List.map_singleton, List.flatMap_singleton] at hgroup
          rw [Site.owner, if_pos hne]
          exact hgroup
        · rw [Site.owner, if_neg hne]
          exact fun _ he => by cases he
      · exact List.forall_mem_singleton.mpr (closed _ rfl (s.groupConclusion_resolved compared))
  | @compared adjective other found =>
    rw [Template.asks, found] at below
    rw [Template.fill, found]
    dsimp only
    rw [Proof.entries?_all?]
    exact Site.forall_mem_asked below
  | @all items h ih =>
    rw [Template.entries?_fill_all]
    intro e he
    obtain ⟨t, ht, he⟩ := List.mem_flatMap.mp he
    refine ih t ht (fun ask hask => below ask ?_) e he
    rw [Template.asks, Template.asksAll_eq]
    exact List.mem_flatMap.mpr ⟨t, ht, hask⟩
  | @branch c lead value ifTrue ifFalse found decided chosen ih =>
    rw [Template.asks, found] at below
    dsimp only at below
    rw [decided] at below
    obtain ⟨hcondition, hbranch⟩ := List.forall_mem_append.mp below
    rw [Template.fill, Site.target_of_ok found]
    dsimp only
    rw [decided]
    have asked := Site.forall_mem_asked hcondition
    rw [List.map_append] at asked
    dsimp only
    rw [Proof.entries?_some, Proof.entries_conditional, Proof.entries_all]
    refine List.forall_mem_append.mpr ⟨asked, ?_⟩
    rw [← apply_ite (Template.fill s)]
    refine ih ?_
    rw [apply_ite (Template.asks s.framework s.goal s.levelsBelow)]
    exact hbranch

end Fill

/-! ### Expansions -/

/-- What tactics leave of a proof holds if the proof does. -/
theorem Tactic.entries_applyAll {P : Entry → Prop} (closed : ∀ e, e.isFailure = false → e.isUnresolved = false → P e)
    (ts : List Tactic) {p : Proof} (h : ∀ e ∈ p.entries, P e) : ∀ e ∈ (Tactic.applyAll ts p).entries, P e := by
  intro e he
  cases ha : e.isAssumption with
  | true => cases e with
    | assumption text => exact closed _ rfl rfl
    | _ => cases ha
  | false =>
    have hstated : e ∈ (Tactic.applyAll ts p).stated := List.mem_filter.mpr ⟨he, by rw [ha]; rfl⟩
    exact h e (List.mem_filter.mp ((Tactic.stated_applyAll_subperm ts p).subset hstated)).1

/-- Goals that have values and are explained from goals of lower rank. -/
structure Framework.Grounds (F : Framework N) (G : Goal N → Prop) (rank : Goal N → Nat) : Prop where
  rank_same : ∀ {g h : Goal N}, g.same h = true → rank g = rank h
  rank_pos : ∀ {g : Goal N}, G g → 1 < rank g
  explained : ∀ {g : Goal N}, G g → ∃ a claim, F.adjective? g.adjective = some a ∧ F.verdict a g = .ok claim ∧
    a.template.Runs F g ∧ ∀ levels, ∀ ask ∈ a.template.asks F g levels, ask.1 = 0 ∧ G ask.2 ∧ rank ask.2 < rank g

section Expand
variable {F : Framework N} {G : Goal N → Prop} {rank : Goal N → Nat} (grounds : F.Grounds G rank) {P : Entry → Prop}
  (closed : ∀ e, e.isFailure = false → e.isUnresolved = false → P e)
  (verdicts : ∀ {g a claim}, G g → F.adjective? g.adjective = some a → F.verdict a g = .ok claim → P (.claim claim))
  {beyond : Goal N → Proof}

include grounds closed verdicts

/-- The rank goes down along the stack, so nothing is cut; and it is enough levels, unless what stands for the goals
below them is fine itself. -/
theorem Framework.Grounds.expand (settings : Settings) {levels level : Nat} {path : List (Goal N)} {goal : Goal N}
    (hgoal : G goal) (hpath : ∀ g ∈ path, rank goal < rank g)
    (enough : rank goal ≤ levels ∨ ∀ g, ∀ e ∈ (beyond g).entries, P e) :
    ∀ e ∈ (F.expand settings beyond levels 0 level path goal).entries, P e := by
  induction levels generalizing level path goal with
  | zero =>
    rw [Framework.expand]
    rcases enough with enough | hbeyond
    · have := grounds.rank_pos hgoal
      omega
    · exact hbeyond goal
  | succ levels ih =>
    obtain ⟨a, claim, ha, hclaim, runs, asked⟩ := grounds.explained hgoal
    -- A goal above that asks the same would not have a higher rank.
    have uncut : path.any (·.same goal) = false := by
      refine Bool.eq_false_iff.mpr fun hcut => ?_
      obtain ⟨g, hg, hsame⟩ := List.any_eq_true.mp hcut
      have := hpath g hg
      have := grounds.rank_same hsame
      omega
    rw [Framework.expand, expandGoal_of_ok ha uncut hclaim]
    refine Tactic.entries_applyAll closed _ ?_
    rw [Proof.entries_because]
    refine List.forall_mem_append.mpr ⟨runs.entries closed (fun ask hask => ?_) fun hz => ?_,
      List.forall_mem_singleton.mpr (verdicts hgoal ha hclaim)⟩
    · obtain ⟨hskipped, hG, hrank⟩ := asked levels ask hask
      dsimp only
      rw [hskipped]
      refine ih hG (List.forall_mem_append.mpr ⟨fun g hg => ?_, List.forall_mem_singleton.mpr hrank⟩) ?_
      · exact Nat.lt_trans hrank (hpath g hg)
      · exact enough.imp_left fun hle => by omega
    · rcases enough with enough | hbeyond
      · have := grounds.rank_pos hgoal
        dsimp only at hz
        omega
      · exact hbeyond

theorem Framework.Grounds.explanation (settings : Settings) {goal : Goal N} (hgoal : G goal)
    (enough : rank goal ≤ settings.explanationDepth ∨ ∀ g, ∀ e ∈ (beyond g).entries, P e) :
    ∀ e ∈ (F.explanation settings goal beyond).entries, P e := by
  unfold Framework.explanation
  rw [Proof.entries_normalize]
  exact Tactic.entries_applyAll closed _ (grounds.expand closed verdicts settings hgoal (fun _ h => by cases h) enough)

end Expand

/-- Explanations of such goals have no failures. -/
theorem Framework.Grounds.failureCount {F : Framework N} {G : Goal N → Prop} {rank : Goal N → Nat}
    (grounds : F.Grounds G rank) (settings : Settings) {goal : Goal N} (hgoal : G goal) :
    (F.explanation settings goal).failureCount = 0 := by
  refine Proof.failureCount_eq_zero.mpr ?_
  refine grounds.explanation (fun _ h _ => h) (fun _ _ _ => rfl) settings hgoal (Or.inr fun g e he => ?_)
  rw [Goal.unresolved, Proof.entries_claim] at he
  rw [List.mem_singleton.mp he]
  rfl

/-- With as many levels as the rank of the goal, nothing is left open but what has an open value. -/
theorem Framework.Grounds.resolved {F : Framework N} {G : Goal N → Prop} {rank : Goal N → Nat}
    (grounds : F.Grounds G rank) (settings : Settings) {goal : Goal N} (hgoal : G goal)
    (verdicts : ∀ {g a claim}, G g → F.adjective? g.adjective = some a → F.verdict a g = .ok claim →
      claim.isUnresolved = false)
    (enough : rank goal ≤ settings.explanationDepth) :
    ∀ c ∈ (F.explanation settings goal).claims, c.isUnresolved = false := by
  intro c hc
  exact grounds.explanation (P := fun e => e.isUnresolved = false) (fun _ _ h => h) verdicts settings hgoal
    (Or.inl enough) _ (Proof.mem_claims.mp hc)

end Rationale
