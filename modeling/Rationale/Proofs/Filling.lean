import Rationale.Explainer
import Rationale.Proofs.Entries

/-!
How templates are filled in, as far as every property of explanations needs it: induction over templates, the
failures that end a branch, and what the parts of a premise say.
-/

namespace Rationale

@[elab_as_elim, induction_eliminator]
theorem Template.induct {motive : Template → Prop}
    (assume : ∀ a, motive (.assume a))
    (possess : ∀ adjective via explainFurther forwardPointer,
      motive (.possess adjective via explainFurther forwardPointer))
    (compare : ∀ comparison pointer, motive (.compare comparison pointer))
    (compareGroup : ∀ comparison group positive, motive (.compareGroup comparison group positive))
    (compared : ∀ adjective, motive (.compared adjective))
    (all : ∀ items, (∀ t ∈ items, motive t) → motive (.all items))
    (branch : ∀ c ifTrue ifFalse, motive ifTrue → motive ifFalse → motive (.branch c ifTrue ifFalse))
    (recurse : ∀ pointer adjective goal, motive (.recurse pointer adjective goal)) (t : Template) : motive t :=
  @Template.rec motive (fun items => ∀ t ∈ items, motive t) assume possess compare compareGroup compared all branch
    recurse (fun _ h => by cases h) (fun _ _ h ih => List.forall_mem_cons.mpr ⟨h, ih⟩) t

theorem Framework.adjective?_name {N : Type} {F : Framework N} {name : String} {a : Adjective N}
    (h : F.adjective? name = some a) : a.name = name := by
  have := List.find?_some h
  exact beq_iff_eq.mp this

theorem Framework.adjective?_mem {N : Type} {F : Framework N} {name : String} {a : Adjective N}
    (h : F.adjective? name = some a) : a ∈ F.adjectives :=
  List.mem_of_find?_eq_some h

variable {N : Type} [Node N]

theorem Proof.cannotEvaluate_eq (name : String) (node : N) (e : EvaluationError) :
    ∃ t, Proof.cannotEvaluate name node e = .failure t := by
  cases e <;> exact ⟨_, rfl⟩

theorem Framework.follow_error {F : Framework N} {node : N} {pointer : String} {p : Proof}
    (h : F.follow node pointer = .error p) : ∃ t, p = .failure t := by
  unfold Framework.follow at h
  split at h
  · cases h
  · cases h
    exact ⟨_, rfl⟩
  · cases h
    exact Proof.cannotEvaluate_eq _ _ _

theorem Framework.follow_ok {F : Framework N} {node target : N} {pointer : String}
    (h : F.follow node pointer = .ok target) : F.evaluate pointer node = .ok (.node target) := by
  unfold Framework.follow at h
  split at h
  · cases h
    assumption
  · cases h
  · cases h

namespace Site

variable {s : Site N}

omit [Node N] in
theorem assumption_eq (s : Site N) (a : Assumption) :
    s.assumption a = none ∨ ∃ t, s.assumption a = some (.assumption t) := by
  unfold Site.assumption
  dsimp only
  repeat' split
  all_goals first | exact Or.inl rfl | exact Or.inr ⟨_, rfl⟩

end Site

/-- Where a template looks from the node of a goal: what it asks for on the way there, and the node. -/
def Framework.lead (F : Framework N) (goal : Goal N) (via : Option String) (forwardPointer : Bool) :
    Except Proof (List (Goal N) × N) :=
  match via with
  | none => .ok ([], goal.node)
  | some pointer => (F.follow goal.node pointer).map fun target =>
    (if pointer ≠ goal.adjective ∧ forwardPointer then [.value pointer goal.node] else [], target)

theorem Framework.lead_error {F : Framework N} {goal : Goal N} {via : Option String} {forwardPointer : Bool}
    {p : Proof} (h : F.lead goal via forwardPointer = .error p) : ∃ t, p = .failure t := by
  unfold Framework.lead at h
  cases via with
  | none => cases h
  | some pointer =>
    cases hf : F.follow goal.node pointer with
    | ok target => simp [hf, Except.map] at h
    | error q =>
      simp only [hf, Except.map, Except.error.injEq] at h
      exact h ▸ follow_error hf

theorem Site.target_eq (s : Site N) (via : Option String) (forwardPointer : Bool) :
    s.target via forwardPointer = (s.framework.lead s.goal via forwardPointer).map fun lead =>
      (lead.1.map (s.below 0), lead.2) := by
  unfold Site.target Framework.lead
  cases via with
  | none => rfl
  | some pointer =>
    dsimp only [Site.node]
    cases s.framework.follow s.goal.node pointer with
    | error p => rfl
    | ok target =>
      change Except.ok (if pointer ≠ s.goal.adjective ∧ forwardPointer then _ else _, target) = Except.ok _
      dsimp only
      split
      · rfl
      · rfl

theorem Site.target_of_error {s : Site N} {via : Option String} {forwardPointer : Bool} {p : Proof}
    (h : s.framework.lead s.goal via forwardPointer = .error p) : s.target via forwardPointer = .error p := by
  rw [target_eq, h]
  rfl

theorem Site.target_of_ok {s : Site N} {via : Option String} {forwardPointer : Bool} {asked : List (Goal N)}
    {node : N} (h : s.framework.lead s.goal via forwardPointer = .ok (asked, node)) :
    s.target via forwardPointer = .ok (asked.map (s.below 0), node) := by
  rw [target_eq, h]
  rfl

theorem Template.fillAll_eq (s : Site N) (items : List Template) :
    Template.fillAll s items = items.filterMap (Template.fill s) := by
  induction items with
  | nil => rfl
  | cons t rest ih =>
    rw [Template.fillAll, List.filterMap_cons, ih]
    cases Template.fill s t <;> rfl

theorem flatMap_filterMap {α β γ : Type} (f : α → Option β) (g : β → List γ) (l : List α) :
    (l.filterMap f).flatMap g = l.flatMap fun a => (f a).elim [] g := by
  induction l with
  | nil => rfl
  | cons a rest ih =>
    rw [List.filterMap_cons, List.flatMap_cons, ← ih]
    cases f a <;> rfl

theorem Template.entries?_fill_all (s : Site N) (items : List Template) :
    Proof.entries? (Template.fill s (.all items)) = items.flatMap fun t => Proof.entries? (Template.fill s t) := by
  rw [Template.fill, Proof.entries?_all?, Template.fillAll_eq, flatMap_filterMap]
  simp only [Proof.entries?_eq]

/-- How a walk goes: at each node the goal is decided, then a level is taken, then the pointer is followed. -/
inductive Framework.Walks (F : Framework N) (pointer goal : String) :
    Nat → List N → N → List (N × N) → WalkEnd N → Prop
  | undecided {levels : Nat} {visited : List N} {node : N} {e : EvaluationError}
      (fails : F.evaluate goal node = .error e) :
      F.Walks pointer goal levels visited node [] (.undecided (.cannotEvaluate goal node e))
  | arrived {levels : Nat} {visited : List N} {node : N} (holds : F.evaluate goal node = .ok (.bool true)) :
      F.Walks pointer goal levels visited node [] (.arrived node)
  | exhausted {visited : List N} {node : N} {v : Value N} (decided : F.evaluate goal node = .ok v)
      (goesOn : v ≠ .bool true) : F.Walks pointer goal 0 visited node [] (.exhausted node)
  | lost {levels : Nat} {visited : List N} {node : N} {v : Value N} {p : Proof}
      (decided : F.evaluate goal node = .ok v) (goesOn : v ≠ .bool true)
      (stuck : F.follow node pointer = .error p) :
      F.Walks pointer goal (levels + 1) visited node [] (.lost p)
  | circular {levels : Nat} {visited : List N} {node next : N} {v : Value N}
      (decided : F.evaluate goal node = .ok v) (goesOn : v ≠ .bool true)
      (followed : F.follow node pointer = .ok next) (seen : visited.any (Node.same · next) = true) :
      F.Walks pointer goal (levels + 1) visited node [(node, next)] (.circular next)
  | hop {levels : Nat} {visited : List N} {node next : N} {v : Value N} {hops : List (N × N)}
      {ending : WalkEnd N} (decided : F.evaluate goal node = .ok v) (goesOn : v ≠ .bool true)
      (followed : F.follow node pointer = .ok next) (unseen : visited.any (Node.same · next) = false)
      (rest : F.Walks pointer goal levels (visited ++ [next]) next hops ending) :
      F.Walks pointer goal (levels + 1) visited node ((node, next) :: hops) ending

namespace Framework

variable {F : Framework N} {pointer goal : String}

theorem walk_walks (F : Framework N) (pointer goal : String) (levels : Nat) (visited : List N) (node : N) :
    F.Walks pointer goal levels visited node (F.walk pointer goal levels visited node).1
      (F.walk pointer goal levels visited node).2 := by
  induction levels generalizing visited node with
  | zero =>
    unfold walk
    split
    · exact .undecided ‹_›
    · exact .arrived ‹_›
    · rename_i v hne hv
      exact .exhausted hv fun h => hne (h ▸ rfl)
  | succ levels ih =>
    unfold walk
    split
    · exact .undecided ‹_›
    · exact .arrived ‹_›
    · rename_i v hne hv
      have goesOn : v ≠ .bool true := fun h => hne (h ▸ rfl)
      dsimp only
      split
      · exact .lost hv goesOn ‹_›
      · rename_i next hnext
        split
        · exact .circular hv goesOn hnext ‹_›
        · rename_i unseen
          exact .hop hv goesOn hnext (Bool.eq_false_iff.mpr unseen) (ih _ _)

theorem Walks.eq_walk {levels : Nat} {visited : List N} {node : N} {hops : List (N × N)} {ending : WalkEnd N}
    (h : F.Walks pointer goal levels visited node hops ending) :
    F.walk pointer goal levels visited node = (hops, ending) := by
  induction h with
  | undecided fails =>
    unfold walk
    rw [fails]
  | arrived holds =>
    unfold walk
    rw [holds]
  | exhausted decided goesOn =>
    rw [walk, decided]
    split <;> simp_all
  | lost decided goesOn stuck =>
    rw [walk, decided]
    split <;> simp_all
  | circular decided goesOn followed seen =>
    rw [walk, decided]
    split <;> simp_all
  | hop decided goesOn followed unseen rest ih =>
    rw [walk, decided]
    split <;> simp_all

theorem Walks.hops {levels : Nat} {visited : List N} {node : N} {hops : List (N × N)} {ending : WalkEnd N}
    (h : F.Walks pointer goal levels visited node hops ending) :
    ∀ hop ∈ hops, F.follow hop.1 pointer = .ok hop.2 := by
  induction h with
  | circular decided goesOn followed seen => exact List.forall_mem_singleton.mpr followed
  | hop decided goesOn followed unseen rest ih => exact List.forall_mem_cons.mpr ⟨followed, ih⟩
  | _ => exact fun _ hm => by cases hm

/-- A walk that ends for want of a value or of a target ends in a failure. -/
theorem Walks.failure {levels : Nat} {visited : List N} {node : N} {hops : List (N × N)} {ending : WalkEnd N}
    (h : F.Walks pointer goal levels visited node hops ending) {p : Proof}
    (hp : ending = .undecided p ∨ ending = .lost p) : ∃ t, p = .failure t := by
  induction h with
  | undecided fails =>
    rcases hp with hp | hp
    · cases hp
      exact Proof.cannotEvaluate_eq _ _ _
    · cases hp
  | lost decided goesOn stuck =>
    rcases hp with hp | hp
    · cases hp
    · cases hp
      exact follow_error stuck
  | hop decided goesOn followed unseen rest ih => exact ih hp
  | _ => rcases hp with hp | hp <;> cases hp

/-- With more levels a walk goes the same way, and on from where it had none left. -/
theorem Walks.deepen {levels levels' : Nat} {visited : List N} {node : N} {hops : List (N × N)}
    {ending : WalkEnd N} (h : F.Walks pointer goal levels visited node hops ending) (hle : levels ≤ levels') :
    F.Walks pointer goal levels' visited node hops ending ∨
      ∃ last more ending', ending = .exhausted last ∧
        F.Walks pointer goal levels' visited node (hops ++ more) ending' := by
  induction h generalizing levels' with
  | undecided fails => exact Or.inl (.undecided fails)
  | arrived holds => exact Or.inl (.arrived holds)
  | exhausted decided goesOn => exact Or.inr ⟨_, _, _, rfl, F.walk_walks pointer goal levels' _ _⟩
  | lost decided goesOn stuck =>
    obtain ⟨rest, rfl⟩ := Nat.exists_eq_add_of_lt hle
    exact Or.inl (.lost decided goesOn stuck)
  | circular decided goesOn followed seen =>
    obtain ⟨rest, rfl⟩ := Nat.exists_eq_add_of_lt hle
    exact Or.inl (.circular decided goesOn followed seen)
  | @hop levels _ _ _ _ _ _ decided goesOn followed unseen rest ih =>
    obtain ⟨levels', rfl⟩ : ∃ n, levels' = n + 1 := ⟨levels' - 1, by omega⟩
    rcases ih (Nat.le_of_succ_le_succ hle) with h | ⟨last, more, ending', hend, h⟩
    · exact Or.inl (.hop decided goesOn followed unseen h)
    · exact Or.inr ⟨last, more, ending', hend, .hop decided goesOn followed unseen h⟩

end Framework

/-- What a recursive possession says after its hops. -/
def Site.ending (s : Site N) (pointer adjective : String) (hops : Nat) : WalkEnd N → Proof
  | .arrived node => s.below hops (.value adjective node)
  | .exhausted node => s.beyond (.value pointer node)
  | .lost failure => failure
  | .undecided failure => failure
  | .circular node => .failure ("circular explanation: " ++ Node.label node
      ++ " is reached again through " ++ pointer)

theorem Site.entries_recursivePossession {s : Site N} {pointer adjective goal : String} {hops : List (N × N)}
    {ending : WalkEnd N} (h : s.framework.Walks pointer goal s.levelsBelow [s.node] s.node hops ending) :
    (s.recursivePossession pointer adjective goal).entries
      = hops.flatMap (fun hop => (Framework.hopClaim pointer hop).entries)
        ++ (s.ending pointer adjective hops.length ending).entries := by
  unfold Site.recursivePossession
  rw [h.eq_walk]
  cases ending <;> simp [Site.ending, List.flatMap_map]

/-! ### Two sites -/

/-- Two sites of one goal at which whatever templates put together is related, and so is what they make of it. -/
structure Site.Related (R : Option Proof → Option Proof → Prop) (s s' : Site N) : Prop where
  framework : s'.framework = s.framework
  goal : s'.goal = s.goal
  failure : ∀ t, R (some (.failure t)) (some (.failure t))
  assumption : ∀ a, R (s.assumption a) (s'.assumption a)
  asked : ∀ g, R (some (s.below 0 g)) (some (s'.below 0 g))
  statement : ∀ adjective node, R (some (s.statement adjective node)) (some (s'.statement adjective node))
  groupComparison : ∀ comparison group positive,
    R (some (s.groupComparison comparison group positive)) (some (s'.groupComparison comparison group positive))
  recursivePossession : ∀ pointer adjective goal,
    R (some (s.recursivePossession pointer adjective goal)) (some (s'.recursivePossession pointer adjective goal))
  following : ∀ (asked : List (Goal N)) {p p'}, R (some p) (some p') →
    R (some (.all (asked.map (s.below 0) ++ [p]))) (some (.all (asked.map (s'.below 0) ++ [p'])))
  all? : ∀ rows : List (Option Proof × Option Proof), (∀ row ∈ rows, R row.1 row.2) →
    R (Proof.all? (rows.filterMap (·.1))) (Proof.all? (rows.filterMap (·.2)))
  conditional : ∀ {owner c c' branch branch'}, R (some c) (some c') → R branch branch' →
    R (some (.conditional owner c branch)) (some (.conditional owner c' branch'))

section Related
variable {R : Option Proof → Option Proof → Prop} {s s' : Site N} (h : s.Related R s')

include h

theorem Site.Related.possession (adjective : String) (via : Option String) (explainFurther forwardPointer : Bool) :
    R (some (s.possession adjective via explainFurther forwardPointer))
      (some (s'.possession adjective via explainFurther forwardPointer)) := by
  unfold Site.possession
  cases hl : s.framework.lead s.goal via forwardPointer with
  | error failure =>
    have hl' : s'.framework.lead s'.goal via forwardPointer = .error failure := by rw [h.framework, h.goal, hl]
    obtain ⟨t, rfl⟩ := Framework.lead_error hl
    rw [Site.target_of_error hl, Site.target_of_error hl']
    exact h.failure t
  | ok lead =>
    have hl' : s'.framework.lead s'.goal via forwardPointer = .ok lead := by rw [h.framework, h.goal, hl]
    rw [Site.target_of_ok hl, Site.target_of_ok hl']
    refine h.following _ ?_
    split
    · exact h.asked _
    · exact h.statement _ _

/-- What a template gives at two related sites is related. -/
theorem Template.fill_related (t : Template) : R (t.fill s) (t.fill s') := by
  have hnode : s'.node = s.node := by rw [Site.node, h.goal, Site.node]
  -- Both sites look up the same, for they have one framework and one goal; so they take the same branches.
  induction t with
  | assume a =>
    rw [Template.fill, Template.fill]
    exact h.assumption a
  | possess adjective via explainFurther forwardPointer =>
    rw [Template.fill, Template.fill]
    exact h.possession _ _ _ _
  | compare comparison pointer =>
    rw [Template.fill, Template.fill, h.framework, hnode]
    split
    · rename_i failure hf
      obtain ⟨t, rfl⟩ := Framework.follow_error hf
      exact h.failure t
    · exact h.asked _
  | compareGroup comparison group positive =>
    rw [Template.fill, Template.fill]
    exact h.groupComparison _ _ _
  | compared adjective =>
    rw [Template.fill, Template.fill, h.goal, hnode]
    split
    · exact h.failure _
    · rename_i other _
      exact h.all? [(some _, some _), (some _, some _)] (List.forall_mem_cons.mpr
        ⟨h.asked (.value adjective s.node), List.forall_mem_singleton.mpr (h.asked (.value adjective other))⟩)
  | all items ih =>
    have rows := h.all? (items.map fun t => (t.fill s, t.fill s')) (List.forall_mem_map.mpr ih)
    rw [List.filterMap_map, List.filterMap_map] at rows
    rw [Template.fill, Template.fill, Template.fillAll_eq, Template.fillAll_eq]
    exact rows
  | branch c ifTrue ifFalse ihTrue ihFalse =>
    rw [Template.fill, Template.fill]
    cases hl : s.framework.lead s.goal c.via true with
    | error failure =>
      have hl' : s'.framework.lead s'.goal c.via true = .error failure := by rw [h.framework, h.goal, hl]
      obtain ⟨t, rfl⟩ := Framework.lead_error hl
      rw [Site.target_of_error hl, Site.target_of_error hl']
      exact h.failure t
    | ok lead =>
      have hl' : s'.framework.lead s'.goal c.via true = .ok lead := by rw [h.framework, h.goal, hl]
      have howner : s'.owner = s.owner := by rw [Site.owner, h.goal, Site.owner]
      rw [Site.target_of_ok hl, Site.target_of_ok hl', h.framework, howner]
      dsimp only
      split
      · rename_i e _
        obtain ⟨t, ht⟩ := Proof.cannotEvaluate_eq c.adjective lead.2 e
        rw [ht]
        exact h.failure t
      · refine h.conditional (h.following _ (h.asked _)) ?_
        split
        · exact ihTrue
        · exact ihFalse
  | recurse pointer adjective goal =>
    rw [Template.fill, Template.fill]
    exact h.recursivePossession _ _ _

end Related

/-- The site over other levels. -/
def Site.over (s : Site N) (levelsBelow : Nat) (below : Below N) (beyond : Goal N → Proof) : Site N :=
  { s with levelsBelow, below, beyond }

namespace Site

variable (s : Site N) (levels : Nat) (below : Below N) (beyond : Goal N → Proof)

omit [Node N]

@[simp] theorem over_framework : (s.over levels below beyond).framework = s.framework := rfl

@[simp] theorem over_goal : (s.over levels below beyond).goal = s.goal := rfl

@[simp] theorem over_node : (s.over levels below beyond).node = s.node := rfl

@[simp] theorem over_owner : (s.over levels below beyond).owner = s.owner := rfl

@[simp] theorem over_levelsBelow : (s.over levels below beyond).levelsBelow = levels := rfl

@[simp] theorem over_explain (adjective : String) (node : N) :
    (s.over levels below beyond).explain adjective node = below 0 (.value adjective node) := rfl

end Site

/-! ### Goals and explanations -/

section Goals
variable {F : Framework N} {level : Nat} {path : List (Goal N)} {goal : Goal N}
  {premise premise' : Adjective N → List (Goal N) → Option Proof}

/-- What a goal comes to whatever the premise is, and what it comes to with the one premise and with the other. -/
theorem Framework.expandGoal_related {R : Proof → Proof → Prop}
    (unknown : F.adjective? goal.adjective = none →
      R (.unknownAdjective goal.adjective) (.unknownAdjective goal.adjective))
    (circular : ∀ a, F.adjective? goal.adjective = some a → path.any (·.same goal) = true →
      R (.circular goal) (.circular goal))
    (undecided : ∀ a e, F.adjective? goal.adjective = some a → F.verdict a goal = .error e →
      R (.cannotEvaluate goal.adjective goal.node e) (.cannotEvaluate goal.adjective goal.node e))
    (explained : ∀ a c, F.adjective? goal.adjective = some a → path.any (·.same goal) = false →
      F.verdict a goal = .ok c →
      R (Tactic.applyAll a.tactics (.because (premise a (path ++ [goal])) c level ⟨a.name, a.kind.origin⟩))
        (Tactic.applyAll a.tactics (.because (premise' a (path ++ [goal])) c level ⟨a.name, a.kind.origin⟩))) :
    R (F.expandGoal level path goal premise) (F.expandGoal level path goal premise') := by
  unfold expandGoal
  cases ha : F.adjective? goal.adjective with
  | none => exact unknown ha
  | some a =>
    dsimp only
    cases cut : path.any (·.same goal) with
    | true => exact circular a ha cut
    | false =>
      cases hv : F.verdict a goal with
      | error e => exact undecided a e ha hv
      | ok c => exact explained a c ha cut hv

@[elab_as_elim]
theorem Framework.expandGoal_cases {motive : Proof → Prop}
    (unknown : F.adjective? goal.adjective = none → motive (.unknownAdjective goal.adjective))
    (circular : ∀ a, F.adjective? goal.adjective = some a → path.any (·.same goal) = true → motive (.circular goal))
    (undecided : ∀ a e, F.adjective? goal.adjective = some a → F.verdict a goal = .error e →
      motive (.cannotEvaluate goal.adjective goal.node e))
    (explained : ∀ a c, F.adjective? goal.adjective = some a → path.any (·.same goal) = false →
      F.verdict a goal = .ok c →
      motive (Tactic.applyAll a.tactics (.because (premise a (path ++ [goal])) c level ⟨a.name, a.kind.origin⟩))) :
    motive (F.expandGoal level path goal premise) :=
  @expandGoal_related N _ F level path goal premise premise (fun p _ => motive p) unknown circular undecided explained

theorem Framework.expandGoal_of_ok {a : Adjective N} (ha : F.adjective? goal.adjective = some a)
    (uncut : path.any (·.same goal) = false) {c : Claim} (hc : F.verdict a goal = .ok c) :
    F.expandGoal level path goal premise = Tactic.applyAll a.tactics
      (.because (premise a (path ++ [goal])) c level ⟨a.name, a.kind.origin⟩) := by
  rw [expandGoal, ha]
  dsimp only
  rw [uncut, hc]
  rfl

/-- A goal looks at the premise of its own adjective, with the goal on the stack, and at no other. -/
theorem Framework.expandGoal_congr (same : ∀ a c, F.adjective? goal.adjective = some a →
      path.any (·.same goal) = false → F.verdict a goal = .ok c →
      premise a (path ++ [goal]) = premise' a (path ++ [goal])) :
    F.expandGoal level path goal premise = F.expandGoal level path goal premise' := by
  refine expandGoal_related (fun _ => rfl) (fun _ _ _ => rfl) (fun _ _ _ _ => rfl) fun a c ha uncut hc => ?_
  rw [same a c ha uncut hc]

end Goals

/-- How deep an explanation may go is no matter of a single template. -/
theorem Template.fill_explanationDepth (s : Site N) (d : Nat) (t : Template) :
    t.fill { s with settings := { s.settings with explanationDepth := d } } = t.fill s := by
  induction t with
  | all items ih =>
    rw [Template.fill, Template.fill, Template.fillAll_eq, Template.fillAll_eq, List.filterMap_congr ih]
  | branch c ifTrue ifFalse ihTrue ihFalse =>
    rw [Template.fill, Template.fill, ihTrue, ihFalse]
    rfl
  | _ =>
    rw [Template.fill, Template.fill]
    rfl

theorem Framework.expand_explanationDepth (F : Framework N) (settings : Settings) (beyond : Goal N → Proof)
    (d levels skipped level : Nat) (path : List (Goal N)) (goal : Goal N) :
    F.expand { settings with explanationDepth := d } beyond levels skipped level path goal
      = F.expand settings beyond levels skipped level path goal := by
  induction levels generalizing skipped level path goal with
  | zero => rw [expand, expand]
  | succ levels ih =>
    cases skipped with
    | succ skipped => rw [expand, expand, ih]
    | zero =>
      rw [expand, expand]
      simp only [ih]
      exact expandGoal_congr fun a _ _ _ _ => Template.fill_explanationDepth
        { framework := F, settings, goal, level, levelsBelow := levels, beyond
          below := fun skipped g =>
            F.expand settings beyond levels skipped (level + 1 + skipped) (path ++ [goal]) g } d a.template

omit [Node N] in
theorem Adjective.goal_adjective {a : Adjective N} {node : N} {other : Option N} {goal : Goal N}
    (h : a.goal node other = .ok goal) : goal.adjective = a.name := by
  unfold Adjective.goal at h
  split at h
  · cases h
    rfl
  · cases h
  · cases h
  · cases h
    rfl

/-- What an answer consists of. -/
theorem Framework.explain_eq_ok {F : Framework N} {settings : Settings} {node : N} {adjective : String}
    {other : Option N} {beyond : Goal N → Proof} {x : Argument} :
    F.explain settings node adjective other beyond = .ok x ↔
      ∃ a goal, F.adjective? adjective = some a ∧ a.goal node other = .ok goal ∧
        x = ⟨F.explanation settings goal beyond, settings.renderOptions⟩ := by
  unfold Framework.explain
  cases F.adjective? adjective with
  | none => simp [bind, Except.bind]
  | some a =>
    cases h : a.goal node other with
    | error e => simp [bind, Except.bind, h]
    | ok goal => simp [bind, Except.bind, pure, Except.pure, h, eq_comm]

/-! ### A smallest domain -/

/-- The two sides of a coin, each the reverse of the other. -/
inductive Coin
  | heads
  | tails
deriving DecidableEq

namespace Coin

instance : Node Coin where
  label
    | heads => "heads"
    | tails => "tails"
  same a b := decide (a = b)

def reverse : Coin → Coin
  | heads => tails
  | tails => heads

/-- The reverse of a side is explained by the reverse of that, so explanations close a cycle. -/
def framework : Framework Coin where
  nodeWord := "side"
  adjectives := [
    { name := "winning", kind := .boolean, getter := some fun c => .ok (.bool (c == heads)) },
    { name := "reverse", kind := .pointer, getter := some fun c => .ok (.node c.reverse)
      explanation := some (.possess "reverse" (some "reverse") true true) }]

def explainer : Explainer Coin := { frameworks := [("coin", framework)] }

end Coin

end Rationale
