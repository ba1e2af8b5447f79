import Mathlib.Data.List.Nodup
import Rationale.Proofs.Chains

/-!
What an explanation depends on. It looks up no names but those that the asked adjective refers to, directly or through
others, for its value or in its template. Two frameworks that define these names alike, with the same word for nodes and
the same tactics, give the same explanations, whatever else they define and in whatever order.
-/

namespace Rationale

variable {N : Type} [Node N]

namespace Framework

section Values
variable {F F' : Framework N} {names : String → Prop} (closes : F.Closes names)
  (alike : ∀ name, names name → F'.adjective? name = F.adjective? name)

include closes alike

theorem compareBy_alike {value value' : Evaluation N}
    (values : ∀ name, names name → ∀ node, value' name node = value name node) {name : String} (hname : names name)
    (a b : N) : F'.compareBy value' name a b = F.compareBy value name a b := by
  unfold compareBy
  rw [alike name hname]
  cases hc : F.adjective? name with
  | none => rfl
  | some c =>
    dsimp only
    cases hk : c.kind with
    | comparison base operator =>
      have hbase (n : N) : value'.number base n = value.number base n :=
        Evaluation.view_congr (values base (closes.base hname hc hk) n) _ _
      dsimp only
      rw [hbase a, hbase b]
    | _ => rfl

/-- With the same room, what is defined alike is evaluated alike. -/
theorem evaluateWithin_alike (depth : Nat) {name : String} (hname : names name) (node : N) :
    F'.evaluateWithin depth name node = F.evaluateWithin depth name node := by
  induction depth generalizing name node with
  | zero => rfl
  | succ depth ih =>
    rw [evaluateWithin, evaluateWithin, alike name hname]
    cases ha : F.adjective? name with
    | none => rfl
    | some a =>
      dsimp only
      cases hk : a.kind with
      | rank kind comparison group =>
        obtain ⟨hcomparison, hgroup⟩ := closes.rank hname ha hk
        have compared (m : N) : F'.compareBy (F'.evaluateWithin depth) comparison node m
            = F.compareBy (F.evaluateWithin depth) comparison node m :=
          compareBy_alike closes alike (fun _ h n => ih h n) hcomparison node m
        have grouped : (F'.evaluateWithin depth).group group node = (F.evaluateWithin depth).group group node :=
          Evaluation.view_congr (ih hgroup node) _ _
        dsimp only
        simp only [grouped, compared]
      | _ => rfl

/-- What is defined alike is evaluated alike, as far as evaluations come to an end. -/
theorem evaluate_alike (ends : ∀ name, names name → ∀ node, Settled (F.evaluate name node)) {name : String}
    (hname : names name) (node : N) : F'.evaluate name node = F.evaluate name node := by
  have among (name : String) (hname : names name) (defined : (F.adjective? name).isSome = true) :
      name ∈ F'.adjectives.map (·.name) := by
    obtain ⟨a, ha⟩ := Option.isSome_iff_exists.mp defined
    rw [← alike name hname] at ha
    exact List.mem_map.mpr ⟨a, adjective?_mem ha, adjective?_name ha⟩
  have settled := ends name hname node
  have settled' := closes.enough hname among settled
  rw [List.length_map] at settled'
  rw [evaluate, evaluateWithin_alike closes alike _ hname]
  rcases Nat.le_total F.adjectives.length F'.adjectives.length with hle | hle
  · exact evaluateWithin_of_le (Nat.succ_le_succ hle) settled
  · exact (evaluateWithin_of_le (Nat.succ_le_succ hle) settled').symm

end Values

/-- A framework gives what the other one does, wherever it is asked by some names. -/
structure Agrees (F F' : Framework N) (names : String → Prop) : Prop where
  closes : F.Closes names
  nodeWord : F'.nodeWord = F.nodeWord
  adjective : ∀ name, names name → F'.adjective? name = F.adjective? name
  evaluate : ∀ name, names name → ∀ node, F'.evaluate name node = F.evaluate name node

namespace Agrees

variable {F F' : Framework N} {names : String → Prop} (agrees : F.Agrees F' names)

include agrees

theorem compare {name : String} (hname : names name) (a b : N) : F'.compare name a b = F.compare name a b :=
  compareBy_alike agrees.closes agrees.adjective agrees.evaluate hname a b

theorem verdict {goal : Goal N} (hgoal : names goal.adjective) (a : Adjective N) :
    F'.verdict a goal = F.verdict a goal := by
  cases goal with
  | value name node => rw [Framework.verdict, Framework.verdict, agrees.evaluate name hgoal]
  | comparison name node other => rw [Framework.verdict, Framework.verdict, agrees.compare (show names name from hgoal)]

theorem follow {pointer : String} (hpointer : names pointer) (node : N) : F'.follow node pointer = F.follow node pointer := by
  rw [Framework.follow, Framework.follow, agrees.evaluate pointer hpointer]

theorem walk {pointer goal : String} (hpointer : names pointer) (hgoal : names goal) (levels : Nat) (visited : List N)
    (node : N) : F'.walk pointer goal levels visited node = F.walk pointer goal levels visited node := by
  induction levels generalizing visited node with
  | zero => rw [Framework.walk, Framework.walk, agrees.evaluate goal hgoal]
  | succ levels ih =>
    rw [Framework.walk, Framework.walk, agrees.evaluate goal hgoal, agrees.follow hpointer]
    simp only [ih]

end Agrees

end Framework

/-! ### Sites -/

/-- The site in another framework, where goals below may be expanded differently. -/
def Site.into (s : Site N) (F' : Framework N) (below : Below N) : Site N := { s with framework := F', below }

namespace Site

variable (s : Site N) (F' : Framework N) (below : Below N)

omit [Node N]

@[simp] theorem into_framework : (s.into F' below).framework = F' := rfl

@[simp] theorem into_goal : (s.into F' below).goal = s.goal := rfl

@[simp] theorem into_node : (s.into F' below).node = s.node := rfl

@[simp] theorem into_owner : (s.into F' below).owner = s.owner := rfl

@[simp] theorem into_level : (s.into F' below).level = s.level := rfl

@[simp] theorem into_levelsBelow : (s.into F' below).levelsBelow = s.levelsBelow := rfl

@[simp] theorem into_below : (s.into F' below).below = below := rfl

@[simp] theorem into_beyond : (s.into F' below).beyond = s.beyond := rfl

end Site

section Fill
variable {s : Site N} {F' : Framework N} {below : Below N} {names : String → Prop}
  (agrees : s.framework.Agrees F' names) (same : ∀ k g, names g.adjective → below k g = s.below k g)

include agrees

theorem Site.assumption_into (a : Assumption) : (s.into F' below).assumption a = s.assumption a := by
  unfold Site.assumption
  rw [into_framework, agrees.nodeWord]
  rfl

theorem Site.statement_into {adjective : String} (hname : names adjective) (node : N) :
    (s.into F' below).statement adjective node = s.statement adjective node := by
  unfold Site.statement
  rw [into_framework, agrees.adjective adjective hname, agrees.evaluate adjective hname]
  rfl

include same

omit agrees [Node N] in
theorem Site.explain_into {adjective : String} (hname : names adjective) (node : N) :
    (s.into F' below).explain adjective node = s.explain adjective node := same 0 (.value adjective node) hname

theorem Site.target_into {via : Option String} (hvia : ∀ r ∈ Template.viaReference via, names r.1)
    (forwardPointer : Bool) : (s.into F' below).target via forwardPointer = s.target via forwardPointer := by
  cases via with
  | none => rfl
  | some pointer =>
    have hpointer : names pointer := hvia _ (List.mem_singleton_self _)
    unfold Site.target
    dsimp only
    rw [into_framework, into_node, into_owner, agrees.follow hpointer, explain_into same hpointer]

theorem Site.possession_into {adjective : String} {via : Option String} (hname : names adjective)
    (hvia : ∀ r ∈ Template.viaReference via, names r.1) (explainFurther forwardPointer : Bool) :
    (s.into F' below).possession adjective via explainFurther forwardPointer
      = s.possession adjective via explainFurther forwardPointer := by
  unfold Site.possession
  simp only [target_into agrees same hvia, explain_into same hname, statement_into agrees hname]

theorem Site.groupComparison_into {comparison group : String} (positive : Bool) (hcomparison : names comparison)
    (hgroup : names group) :
    (s.into F' below).groupComparison comparison group positive = s.groupComparison comparison group positive := by
  have relevance : (s.into F' below).relevance comparison = s.relevance comparison := by
    funext member
    unfold Site.relevance
    rw [into_framework, agrees.adjective comparison hcomparison]
    cases hc : s.framework.adjective? comparison with
    | none => rfl
    | some c =>
      dsimp only
      cases hk : c.kind with
      | comparison base operator =>
        have hbase : F'.evaluateNumber base member = s.framework.evaluateNumber base member :=
          Evaluation.view_congr (agrees.evaluate base (agrees.closes.base hcomparison hc hk) member) _ _
        dsimp only
        rw [hbase]
      | _ => rfl
  have members : F'.evaluateGroup group s.node = s.framework.evaluateGroup group s.node :=
    Evaluation.view_congr (agrees.evaluate group hgroup s.node) _ _
  have compared : F'.compare comparison s.node = s.framework.compare comparison s.node :=
    funext (agrees.compare hcomparison s.node)
  have proved (member : N) : below 0 (.comparison comparison s.node member)
      = s.below 0 (.comparison comparison s.node member) := same 0 _ hcomparison
  unfold Site.groupComparison
  rw [into_levelsBelow, into_framework, into_node, into_owner, into_level, into_below, into_beyond, members, compared,
    relevance, explain_into same hgroup]
  simp only [proved]
  rfl

theorem Site.recursivePossession_into {pointer adjective goal : String} (hpointer : names pointer)
    (hadjective : names adjective) (hgoal : names goal) :
    (s.into F' below).recursivePossession pointer adjective goal = s.recursivePossession pointer adjective goal := by
  have arrived (k : Nat) (node : N) : below k (.value adjective node) = s.below k (.value adjective node) :=
    same k _ hadjective
  unfold Site.recursivePossession
  simp only [into_framework, into_levelsBelow, into_node, into_below, into_beyond, agrees.walk hpointer hgoal, arrived]

/-- A template gives the same in another framework that agrees on its references, and expands goals about them alike. -/
theorem Template.fill_into (t : Template) (refers : ∀ r ∈ t.references, names r.1) :
    t.fill (s.into F' below) = t.fill s := by
  induction t with
  | assume a =>
    rw [Template.fill, Template.fill, Site.assumption_into agrees]
  | possess adjective via explainFurther forwardPointer =>
    obtain ⟨hname, hvia⟩ := List.forall_mem_cons.mp refers
    rw [Template.fill, Template.fill, Site.possession_into agrees same hname hvia]
  | compare comparison pointer =>
    obtain ⟨hcomparison, hpointer⟩ := List.forall_mem_cons.mp refers
    have compared (target : N) : below 0 (.comparison comparison s.node target)
        = s.below 0 (.comparison comparison s.node target) := same 0 _ hcomparison
    rw [Template.fill, Template.fill]
    simp only [Site.into_framework, Site.into_node, Site.into_below, compared,
      agrees.follow (hpointer _ (List.mem_singleton_self _))]
  | compareGroup comparison group positive =>
    obtain ⟨hcomparison, hgroup⟩ := List.forall_mem_cons.mp refers
    rw [Template.fill, Template.fill,
      Site.groupComparison_into agrees same positive hcomparison (hgroup _ (List.mem_singleton_self _))]
  | compared adjective =>
    have hname : names adjective := refers _ (List.mem_singleton_self _)
    rw [Template.fill, Template.fill]
    simp only [Site.into_goal, Site.into_node, Site.explain_into same hname]
  | all items ih =>
    rw [Template.references, Template.referencesOfAll_eq] at refers
    rw [Template.fill, Template.fill, Template.fillAll_eq, Template.fillAll_eq]
    refine congrArg Proof.all? (List.filterMap_congr fun t ht => ih t ht fun r hr => ?_)
    exact refers r (List.mem_flatMap.mpr ⟨t, ht, hr⟩)
  | branch c ifTrue ifFalse ihTrue ihFalse =>
    rw [Template.references] at refers
    obtain ⟨rest, hfalse⟩ := List.forall_mem_append.mp refers
    obtain ⟨condition, htrue⟩ := List.forall_mem_append.mp rest
    obtain ⟨hname, hvia⟩ := List.forall_mem_cons.mp condition
    rw [Template.fill, Template.fill, Site.target_into agrees same hvia]
    simp only [Site.into_framework, Site.into_owner, agrees.evaluate c.adjective hname, Site.explain_into same hname,
      ihTrue htrue, ihFalse hfalse]
  | recurse pointer adjective goal =>
    obtain ⟨hpointer, rest⟩ := List.forall_mem_cons.mp refers
    obtain ⟨hadjective, hgoal⟩ := List.forall_mem_cons.mp rest
    rw [Template.fill, Template.fill, Site.recursivePossession_into agrees same hpointer hadjective
      (hgoal _ (List.mem_singleton_self _))]

end Fill

namespace Framework

variable {F F' : Framework N}

/-! ### Explanations -/

/-- A goal is expanded alike up to the premise of its adjective. -/
theorem expandGoal_agrees {names : String → Prop} (agrees : F.Agrees F' names) (level : Nat) (path : List (Goal N))
    {goal : Goal N} (hgoal : names goal.adjective) (premise : Adjective N → List (Goal N) → Option Proof) :
    F'.expandGoal level path goal premise = F.expandGoal level path goal premise := by
  unfold expandGoal
  rw [agrees.adjective _ hgoal]
  cases F.adjective? goal.adjective with
  | none => rfl
  | some a =>
    dsimp only
    rw [agrees.verdict hgoal a]

theorem expand_agrees {names : String → Prop} (agrees : F.Agrees F' names) (settings : Settings)
    (beyond : Goal N → Proof) (levels skipped level : Nat) (path : List (Goal N)) (goal : Goal N)
    (hgoal : names goal.adjective) : F'.expand settings beyond levels skipped level path goal
      = F.expand settings beyond levels skipped level path goal := by
  induction levels generalizing skipped level path goal with
  | zero => rw [expand, expand]
  | succ levels ih =>
    cases skipped with
    | succ skipped => rw [expand, expand, ih _ _ _ _ hgoal]
    | zero =>
      rw [expand, expand, expandGoal_agrees agrees level path hgoal]
      refine expandGoal_congr fun a _ ha _ _ => ?_
      -- The names are closed under references, so they include all that the template refers to.
      have refers : ∀ r ∈ a.template.references, names r.1 := fun r hr =>
        agrees.closes _ a hgoal ha r (List.mem_append_right _ hr)
      exact Template.fill_into (s := {
          framework := F, settings, goal, level, levelsBelow := levels, beyond
          below := fun skipped g =>
            F.expand settings beyond levels skipped (level + 1 + skipped) (path ++ [goal]) g })
        agrees (fun skipped g hg => ih skipped (level + 1 + skipped) (path ++ [goal]) g hg) a.template refers

/-- The names that an explanation of an adjective can come to. -/
inductive DependsOn {N : Type} (F : Framework N) (name : String) : String → Prop
  | self : F.DependsOn name name
  | reference {name' : String} {a : Adjective N} {reference : String × Role} (h : F.DependsOn name name')
      (ha : F.adjective? name' = some a) (hr : reference ∈ a.references) : F.DependsOn name reference.1

omit [Node N] in
theorem closes_dependsOn (F : Framework N) (name : String) : F.Closes (F.DependsOn name) :=
  fun _ _ h ha _ hr => .reference h ha hr

/-- No evaluation that an explanation of the adjective can come to goes on for ever. -/
def Ends (F : Framework N) (name : String) : Prop :=
  ∀ name', F.DependsOn name name' → ∀ node, Settled (F.evaluate name' node)

theorem ends_of_validate (valid : F.validate = .ok ()) (name : String) : F.Ends name :=
  fun name' _ => evaluate_settled valid name'

/-- The frameworks have the same word for nodes and the same tactics, and define alike what the adjective depends on in
the first. -/
structure Alike {N : Type} (F F' : Framework N) (name : String) : Prop where
  nodeWord : F'.nodeWord = F.nodeWord
  tactics : F'.tactics = F.tactics
  adjectives : ∀ name', F.DependsOn name name' → F'.adjective? name' = F.adjective? name'

theorem explain_congr {name : String} (defined : F'.adjective? name = F.adjective? name) {settings : Settings}
    (same : ∀ goal : Goal N, goal.adjective = name → F'.explanation settings goal = F.explanation settings goal)
    (node : N) (other : Option N) : F'.explain settings node name other = F.explain settings node name other := by
  unfold explain
  rw [defined]
  cases ha : F.adjective? name with
  | none => simp only [bind, Except.bind]
  | some a =>
    cases hgoal : a.goal node other with
    | error e => simp only [hgoal, bind, Except.bind]
    | ok goal =>
      have asked : goal.adjective = name := (Adjective.goal_adjective hgoal).trans (adjective?_name ha)
      simp only [hgoal, bind, Except.bind, same goal asked]

theorem explain_alike {name : String} (ends : F.Ends name) (alike : F.Alike F' name) (settings : Settings) (node : N)
    (other : Option N) : F'.explain settings node name other = F.explain settings node name other := by
  have agrees : F.Agrees F' (F.DependsOn name) := {
    closes := F.closes_dependsOn name
    nodeWord := alike.nodeWord
    adjective := alike.adjectives
    evaluate := fun _ hname node => evaluate_alike (F.closes_dependsOn name) alike.adjectives ends hname node }
  refine explain_congr (alike.adjectives name .self) (fun goal asked => ?_) node other
  rw [explanation, explanation, alike.tactics, expand_agrees agrees settings _ _ _ _ _ goal (asked ▸ .self)]

/-! ### Changes -/

section Changes

omit [Node N]

theorem add_eq_ok {a : Adjective N} (h : F.add a = .ok F') : F' = { F with adjectives := F.adjectives ++ [a] } := by
  unfold add at h
  split at h
  · cases h
  · split at h
    · cases h
    · exact (Except.ok.inj h).symm

theorem adjective?_add {a : Adjective N} (h : F.add a = .ok F') {name : String} (other : a.name ≠ name) :
    F'.adjective? name = F.adjective? name := by
  have unnamed : (a.name == name) = false := beq_eq_false_iff_ne.mpr other
  rw [add_eq_ok h, adjective?, List.find?_append, List.find?_cons_of_neg (by rw [unnamed]; exact Bool.false_ne_true),
    List.find?_nil, Option.or_none, adjective?]

theorem remove_eq_ok {removed : String} {a : Adjective N} (h : F.remove removed = .ok (a, F')) :
    F' = { F with adjectives := F.adjectives.eraseP (·.name == removed) } := by
  unfold remove at h
  cases ha : F.adjective removed with
  | error e => simp only [ha, bind, Except.bind, reduceCtorEq] at h
  | ok b =>
    simp only [ha, bind, Except.bind, pure, Except.pure, Except.ok.injEq, Prod.mk.injEq] at h
    exact h.2.symm

theorem adjective?_remove {removed : String} {a : Adjective N} (h : F.remove removed = .ok (a, F')) {name : String}
    (other : removed ≠ name) : F'.adjective? name = F.adjective? name := by
  rw [remove_eq_ok h, adjective?, adjective?]
  dsimp only
  induction F.adjectives with
  | nil => rfl
  | cons b rest ih =>
    rw [List.eraseP_cons]
    by_cases hb : b.name = removed
    · have unnamed : (b.name == name) = false := beq_eq_false_iff_ne.mpr (hb ▸ other)
      rw [hb, beq_self_eq_true, cond_true, List.find?_cons_of_neg]
      rw [unnamed]
      exact Bool.false_ne_true
    · rw [beq_eq_false_iff_ne.mpr hb, cond_false, List.find?_cons, List.find?_cons, ih]

theorem adjective?_eq_some {name : String} (distinct : (F.adjectives.map (·.name)).Nodup) {a : Adjective N} :
    F.adjective? name = some a ↔ a ∈ F.adjectives ∧ a.name = name := by
  refine ⟨fun h => ⟨adjective?_mem h, adjective?_name h⟩, ?_⟩
  rintro ⟨ha, rfl⟩
  cases hb : F.adjective? a.name with
  | none => exact absurd (beq_self_eq_true a.name) (List.find?_eq_none.mp hb a ha)
  | some b => rw [List.inj_on_of_nodup_map distinct (adjective?_mem hb) ha (adjective?_name hb)]

theorem adjective?_perm {adjectives : List (Adjective N)} (perm : adjectives.Perm F.adjectives)
    (distinct : (F.adjectives.map (·.name)).Nodup) (name : String) :
    Framework.adjective? { F with adjectives } name = F.adjective? name := by
  have distinct' : (adjectives.map (·.name)).Nodup := (perm.map _).nodup_iff.mpr distinct
  refine Option.ext fun a => ?_
  rw [adjective?_eq_some distinct, adjective?_eq_some (F := { F with adjectives }) distinct', perm.mem_iff]

end Changes

/-- An explanation depends only on what the asked adjective refers to: it is the same in any framework that defines this
alike, and so with another adjective added, with one taken out, or with the adjectives in another order. -/
theorem explain_frame {F : Framework N} {name : String} (ends : F.Ends name) :
    (∀ F', F.Alike F' name → ∀ settings node other,
      F'.explain settings node name other = F.explain settings node name other) ∧
    (∀ a F', F.add a = .ok F' → ¬F.DependsOn name a.name → ∀ settings node other,
      F'.explain settings node name other = F.explain settings node name other) ∧
    (∀ removed a F', F.remove removed = .ok (a, F') → ¬F.DependsOn name removed → ∀ settings node other,
      F'.explain settings node name other = F.explain settings node name other) ∧
    ∀ adjectives : List (Adjective N), adjectives.Perm F.adjectives → (F.adjectives.map (·.name)).Nodup →
      ∀ settings node other, Framework.explain { F with adjectives } settings node name other
        = F.explain settings node name other := by
  refine ⟨fun F' alike => explain_alike ends alike, fun a F' added apart => ?_, fun removed a F' taken apart => ?_,
    fun adjectives perm distinct => ?_⟩
  · have framework := add_eq_ok added
    refine explain_alike ends ⟨by rw [framework], by rw [framework], fun name' h => adjective?_add added ?_⟩
    rintro rfl
    exact apart h
  · have framework := remove_eq_ok taken
    refine explain_alike ends ⟨by rw [framework], by rw [framework], fun name' h => adjective?_remove taken ?_⟩
    rintro rfl
    exact apart h
  · exact explain_alike ends ⟨rfl, rfl, fun name' _ => adjective?_perm perm distinct name'⟩

end Framework

theorem Suit.depends_best (tactics : List Tactic) {name : String} (h : (framework tactics).DependsOn "best" name) :
    name ∈ ["best", "better", "rest", "worth"] := by
  induction h with
  | self => decide
  | @reference name' a reference _ ha hr ih =>
    simp only [List.mem_cons, List.not_mem_nil, or_false] at ih
    rcases ih with rfl | rfl | rfl | rfl
    all_goals
      cases ha
      revert reference
      decide

/-- What is said of the best suit stays the same when colours come into the framework. -/
theorem Suit.explain_colours : ∃ F', (framework [.compactSame]).add { name := "red", kind := .boolean } = .ok F' ∧
    F'.explain { explanationDepth := 2 } clubs "best"
      = (framework [.compactSame]).explain { explanationDepth := 2 } clubs "best" := by
  have ends : (framework [.compactSame]).Ends "best" := Framework.ends_of_validate rfl "best"
  obtain ⟨F', added⟩ : ∃ F', (framework [.compactSame]).add { name := "red", kind := .boolean } = .ok F' := ⟨_, rfl⟩
  refine ⟨F', added, (Framework.explain_frame ends).2.1 _ F' added (fun h => ?_) _ _ _⟩
  have hname := depends_best _ h
  revert hname
  decide

end Rationale
