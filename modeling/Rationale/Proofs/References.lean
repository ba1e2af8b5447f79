import Rationale.Proofs.Evaluation
import Rationale.Proofs.Sources

/-!
What the validation of references is good for. In a valid framework ranks need comparisons and groups, comparisons
need quantities, and nothing else is needed for a value; no value or explanation comes to a name that is not defined,
or that is used as a comparison without being one. Explanations can still break off for the shape of their templates
alone, since validation lets a template possess a comparison, or compare where there is one node only.
-/

namespace Rationale

namespace EvaluationError

/-- The errors from the one that is reported to the one that failed first. -/
def chain : EvaluationError → List EvaluationError
  | .dependent adjective node dependency cause => .dependent adjective node dependency cause :: cause.chain
  | e => [e]

/-- No error along the chain is a bad one. -/
def Avoids (bad : EvaluationError → Bool) (e : EvaluationError) : Prop := ∀ x ∈ e.chain, bad x = false

/-- A name is not defined, or is used as a comparison without being one. -/
def isMisreference : EvaluationError → Bool
  | .unknownReference _ => true
  | .notAComparison _ => true
  | _ => false

/-- A name is not defined, or is used as what it is not. -/
def isMisuse : EvaluationError → Bool
  | .requiresTwoNodes _ => true
  | e => e.isMisreference

theorem avoids_own {bad : EvaluationError → Bool} {e : EvaluationError} (h : bad e = false) (own : e.chain = [e]) :
    e.Avoids bad := by
  unfold Avoids
  rw [own]
  exact List.forall_mem_singleton.mpr h

theorem closed_isMisreference : Closed (Avoids isMisreference) where
  missingGetter _ := avoids_own rfl rfl
  getter _ _ _ := avoids_own rfl rfl
  unexpectedValue _ _ _ _ := avoids_own rfl rfl
  dependent _ _ _ _ h := List.forall_mem_cons.mpr ⟨rfl, h⟩

theorem closed_isMisuse : Closed (Avoids isMisuse) where
  missingGetter _ := avoids_own rfl rfl
  getter _ _ _ := avoids_own rfl rfl
  unexpectedValue _ _ _ _ := avoids_own rfl rfl
  dependent _ _ _ _ h := List.forall_mem_cons.mpr ⟨rfl, h⟩

end EvaluationError

open EvaluationError

variable {N : Type} [Node N]

/-- The value of an adjective depends on that of another one. -/
def Framework.Needs {N : Type} (F : Framework N) (a b : Adjective N) : Prop :=
  a ∈ F.adjectives ∧ ∃ reference ∈ a.kind.references, F.adjective? reference.1 = some b

namespace Framework

variable {F : Framework N} (valid : F.validate = .ok ())

include valid

omit [Node N] in
theorem needs_cases {a b : Adjective N} (h : F.Needs a b) :
    a.kind.origin = .rank ∧ (b.kind.origin = .comparison ∨ b.kind.origin = .nodesGroup) ∨
      a.kind.origin = .comparison ∧ b.kind.origin = .quantitative := by
  obtain ⟨ha, reference, hr, hb⟩ := h
  obtain ⟨target, ht, hadmits⟩ := validate_references valid ha (List.mem_append_left _ hr)
  cases ht.symm.trans hb
  unfold AdjectiveKind.references at hr
  split at hr
  · rename_i hk
    cases List.mem_singleton.mp hr
    exact Or.inr ⟨by rw [hk]; rfl, by rw [Role.admits_quantitative hadmits]; rfl⟩
  · rename_i hk
    refine Or.inl ⟨by rw [hk]; rfl, ?_⟩
    rcases List.mem_cons.mp hr with rfl | hr
    · exact Or.inl (Role.admits_comparison hadmits)
    · cases List.mem_singleton.mp hr
      obtain ⟨_, hgroup⟩ := Role.admits_nodesGroup hadmits
      exact Or.inr (by rw [hgroup]; rfl)
  · cases hr

omit [Node N] in
/-- Values depend on one another from a rank over a comparison to its base at most. -/
theorem needs_nesting {a b c : Adjective N} (hab : F.Needs a b) (hbc : F.Needs b c) :
    a.kind.origin = .rank ∧ b.kind.origin = .comparison ∧ c.kind.origin = .quantitative ∧ ∀ d, ¬F.Needs c d := by
  -- Only ranks and comparisons need anything, and no rank is needed.
  rcases needs_cases valid hbc with ⟨hb, -⟩ | ⟨hb, hc⟩
  · rcases needs_cases valid hab with ⟨-, hb' | hb'⟩ | ⟨-, hb'⟩ <;> rw [hb] at hb' <;> cases hb'
  · refine ⟨?_, hb, hc, fun d hd => ?_⟩
    · rcases needs_cases valid hab with ⟨ha, -⟩ | ⟨-, hb'⟩
      · exact ha
      · rw [hb] at hb'
        cases hb'
    · rcases needs_cases valid hd with ⟨hc', -⟩ | ⟨hc', -⟩ <;> rw [hc] at hc' <;> cases hc'

/-- One level is enough for the base of a comparison. -/
theorem compareBy_room (depth : Nat) (name : String) (a b : N) :
    F.compareBy (F.evaluateWithin (depth + 1)) name a b = F.compareBy (F.evaluateWithin 1) name a b := by
  unfold compareBy
  cases hc : F.adjective? name with
  | none => rfl
  | some c =>
    dsimp only
    cases hk : c.kind with
    | comparison base operator =>
      obtain ⟨q, hq, hquantity⟩ := validate_comparison valid hc hk
      have fetched (n : N) : F.evaluateWithin (depth + 1) base n = F.evaluateWithin 1 base n := by
        have hfetched : q.kind.isFetched = true := by rw [hquantity]; rfl
        rw [evaluateWithin_fetch hq hfetched, evaluateWithin_fetch hq hfetched]
      have numbers (n : N) : (F.evaluateWithin (depth + 1)).number base n = (F.evaluateWithin 1).number base n :=
        Evaluation.view_congr (fetched n) _ _
      dsimp only
      rw [numbers a, numbers b]
    | _ => rfl

/-- Two levels are enough for every value. -/
theorem evaluateWithin_room (depth : Nat) (name : String) (node : N) :
    F.evaluateWithin (depth + 2) name node = F.evaluateWithin 2 name node := by
  rw [evaluateWithin, evaluateWithin]
  cases ha : F.adjective? name with
  | none => rfl
  | some a =>
    dsimp only
    cases hk : a.kind with
    | rank kind comparison group =>
      obtain ⟨-, g, excludingSelf, hg, hgroup⟩ := validate_rank valid ha hk
      have hfetched : g.kind.isFetched = true := by rw [hgroup]; rfl
      have fetched : F.evaluateWithin (depth + 1) group node = F.evaluateWithin 1 group node := by
        rw [evaluateWithin_fetch hg hfetched, evaluateWithin_fetch hg hfetched]
      have grouped : (F.evaluateWithin (depth + 1)).group group node = (F.evaluateWithin 1).group group node :=
        Evaluation.view_congr fetched _ _
      dsimp only
      simp only [grouped, compareBy_room valid depth]
    | _ => rfl

theorem evaluate_room (depth : Nat) (name : String) (node : N) :
    F.evaluateWithin (depth + 2) name node = F.evaluate name node := by
  rw [evaluateWithin_room valid]
  cases ha : F.adjective? name with
  | none => rw [evaluate, evaluateWithin_unknown ha, evaluateWithin_unknown ha]
  | some a =>
    obtain ⟨depth', hdepth⟩ := evaluate_eq_within ha
    rw [hdepth]
    exact (evaluateWithin_room valid depth' name node).symm

theorem compare_room (depth : Nat) (name : String) (a b : N) :
    F.compareBy (F.evaluateWithin (depth + 1)) name a b = F.compare name a b :=
  (compareBy_room valid depth name a b).trans (compareBy_room valid F.adjectives.length name a b).symm

end Framework

/-! ### Failures of explanations -/

/-- Where explanations break off for want of a value or in a circle, by adjectives that are defined and of the kind that
is needed. The errors of the values avoid the bad ones. -/
inductive Framework.BreaksOff (F : Framework N) (bad : EvaluationError → Bool) : Proof → Prop
  | value {a : Adjective N} {node : N} {e : EvaluationError} (defined : F.adjective? a.name = some a)
      (fails : F.evaluate a.name node = .error e) (avoids : e.Avoids bad) :
      F.BreaksOff bad (.cannotEvaluate a.name node e)
  | comparison {a : Adjective N} {node other : N} {e : EvaluationError} (defined : F.adjective? a.name = some a)
      (kind : a.kind.origin = .comparison) (fails : F.compare a.name node other = .error e) (avoids : e.Avoids bad) :
      F.BreaksOff bad (.cannotEvaluate a.name node e)
  | group {a : Adjective N} {node : N} {e : EvaluationError} (defined : F.adjective? a.name = some a)
      (kind : a.kind.origin = .nodesGroup) (fails : F.evaluateGroup a.name node = .error e) (avoids : e.Avoids bad) :
      F.BreaksOff bad (.cannotEvaluate a.name node e)
  | nowhere {a : Adjective N} {node : N} {v : Value N} (defined : F.adjective? a.name = some a)
      (kind : a.kind = .pointer) (evaluated : F.evaluate a.name node = .ok v) :
      F.BreaksOff bad (.failure (Node.label node ++ " has no " ++ a.name))
  | circular {a : Adjective N} {goal : Goal N} (defined : F.adjective? goal.adjective = some a) :
      F.BreaksOff bad (.circular goal)
  | again {a : Adjective N} {node : N} (defined : F.adjective? a.name = some a) (kind : a.kind = .pointer) :
      F.BreaksOff bad (.failure ("circular explanation: " ++ Node.label node ++ " is reached again through " ++ a.name))

/-- The adjective of a goal is defined, and suits the number of nodes that the goal is about. -/
def Goal.Suits (F : Framework N) (valued : Adjective N → Prop) : Goal N → Prop
  | .value name _ => ∃ a, F.adjective? name = some a ∧ valued a
  | .comparison name _ _ => ∃ a, F.adjective? name = some a ∧ a.isComparison = true

/-- A branch that compares, in the explanation of an adjective that is asked for a value. -/
inductive Framework.ComparesAlone (F : Framework N) (valued : Adjective N → Prop) : Proof → Prop
  | intro {owner a : Adjective N} (defined : F.adjective? owner.name = some owner) (asked : valued owner)
      (h : (a.name, .quantitative) ∈ owner.template.references) (defined' : F.adjective? a.name = some a) :
      F.ComparesAlone valued (.unpaired a.name)

section Failures
variable {F : Framework N} (valid : F.validate = .ok ()) {bad : EvaluationError → Bool}
  (closed : EvaluationError.Closed (Avoids bad)) {valued : Adjective N → Prop}
  (values : ∀ {name a}, F.adjective? name = some a → valued a → ∀ node, Errs (Avoids bad) (F.evaluate name node))
  (used : ∀ a ∈ F.adjectives, ∀ name role, (name, role) ∈ a.template.references → role ≠ Role.comparison →
    ∀ b, F.adjective? name = some b → valued b)

include valid

omit [Node N] in
theorem Framework.template_reference {name owner : String} {role : Role} {a : Adjective N}
    (ha : F.adjective? owner = some a) (h : (name, role) ∈ a.template.references) :
    ∃ b, F.adjective? name = some b ∧ role.admits b.kind = true :=
  validate_references valid (adjective?_mem ha) (List.mem_append_right _ h)

include used in
omit [Node N] in
theorem Goal.IsAsked.suits {g : Goal N} {owner : String} {a : Adjective N} (ha : F.adjective? owner = some a)
    (h : g.IsAsked a.template.references) : g.Suits F valued := by
  cases h with
  | value h hrole =>
    obtain ⟨b, hb, -⟩ := Framework.template_reference valid ha h
    exact ⟨b, hb, used a (Framework.adjective?_mem ha) _ _ h hrole b hb⟩
  | comparison h =>
    obtain ⟨b, hb, hadmits⟩ := Framework.template_reference valid ha h
    exact ⟨b, hb, beq_iff_eq.mpr (Role.admits_comparison hadmits)⟩

omit [Node N] valid in
theorem Framework.adjective?_self {name : String} {a : Adjective N} (ha : F.adjective? name = some a) :
    a.name = name ∧ F.adjective? a.name = some a :=
  ⟨adjective?_name ha, (adjective?_name ha).symm ▸ ha⟩

include closed values used

/-- What breaks off the filled in template of an adjective that is asked for as it suits. -/
theorem Site.Puts.breaksOff {s : Site N} {a : Adjective N} {p : Proof} (hF : s.framework = F)
    (suits : s.goal.Suits F valued) (ha : F.adjective? s.goal.adjective = some a)
    (h : s.Puts a.template.references p) (failure : p.isFailure = true) :
    F.BreaksOff bad p ∨ F.ComparesAlone valued p := by
  subst hF
  cases h with
  | unknown h hrole undefined =>
    -- Validation found all references of the template, so no adjective is unknown here.
    obtain ⟨b, hb, -⟩ := Framework.template_reference valid ha h
    rw [undefined] at hb
    cases hb
  | undecided h hrole fails =>
    obtain ⟨b, hb, -⟩ := Framework.template_reference valid ha h
    have hvalued := used a (Framework.adjective?_mem ha) _ _ h hrole b hb
    obtain ⟨rfl, hdefined⟩ := Framework.adjective?_self hb
    exact Or.inl (.value hdefined fails (values hdefined hvalued _ _ fails))
  | ungrouped h fails =>
    obtain ⟨b, hb, hadmits⟩ := Framework.template_reference valid ha h
    have hvalued := used a (Framework.adjective?_mem ha) _ _ h (by decide) b hb
    obtain ⟨excludingSelf, hgroup⟩ := Role.admits_nodesGroup hadmits
    obtain ⟨rfl, hdefined⟩ := Framework.adjective?_self hb
    have avoids := Evaluation.view_errs closed (values hdefined hvalued s.node) _ _ _ fails
    exact Or.inl (.group hdefined (by rw [hgroup]; rfl) fails avoids)
  | nowhere h evaluated =>
    obtain ⟨b, hb, hadmits⟩ := Framework.template_reference valid ha h
    obtain ⟨rfl, hdefined⟩ := Framework.adjective?_self hb
    exact Or.inl (.nowhere hdefined (Role.admits_pointer hadmits) evaluated)
  | again h =>
    obtain ⟨b, hb, hadmits⟩ := Framework.template_reference valid ha h
    obtain ⟨rfl, hdefined⟩ := Framework.adjective?_self hb
    exact Or.inl (.again hdefined (Role.admits_pointer hadmits))
  | unpaired h alone =>
    obtain ⟨b, hb, -⟩ := Framework.template_reference valid ha h
    -- Only a goal about one node is without a second one, and such goals are about adjectives with values.
    have hvalued : valued a := by
      cases hgoal : s.goal with
      | value name node =>
        rw [hgoal] at suits ha
        obtain ⟨a', ha', hvalued⟩ := suits
        cases ha.symm.trans ha'
        exact hvalued
      | comparison name node other =>
        rw [hgoal] at alone
        cases alone
    obtain ⟨rfl, hdefined⟩ := Framework.adjective?_self hb
    exact Or.inr (.intro (Framework.adjective?_self ha).2 hvalued h hdefined)
  | group => cases failure

/-- What breaks off the explanations of such goals. -/
theorem Framework.Puts.breaksOff {p : Proof} (h : F.Puts (Goal.Suits F valued) p) (failure : p.isFailure = true) :
    F.BreaksOff bad p ∨ F.ComparesAlone valued p := by
  have defined {g : Goal N} (hG : g.Suits F valued) : ∃ a, F.adjective? g.adjective = some a := by
    cases g with
    | value name node => exact ⟨hG.choose, hG.choose_spec.1⟩
    | comparison name node other => exact ⟨hG.choose, hG.choose_spec.1⟩
  cases h with
  | unknown hG undefined =>
    obtain ⟨a, ha⟩ := defined hG
    rw [undefined] at ha
    cases ha
  | circular hG =>
    obtain ⟨a, ha⟩ := defined hG
    exact Or.inl (.circular ha)
  | @undecided goal a e hG ha fails =>
    cases goal with
    | value name node =>
      obtain ⟨b, hb, hvalued⟩ := hG
      cases ha.symm.trans hb
      obtain ⟨rfl, hdefined⟩ := adjective?_self hb
      have hv := map_eq_error.mp fails
      exact Or.inl (.value hdefined hv (values hdefined hvalued node _ hv))
    | comparison name node other =>
      obtain ⟨b, hb, hcomparison⟩ := hG
      cases ha.symm.trans hb
      obtain ⟨rfl, hdefined⟩ := adjective?_self hb
      have hv := map_eq_error.mp fails
      have avoids := compare_errs closed valid hdefined hcomparison node other _ hv
      exact Or.inl (.comparison hdefined (beq_iff_eq.mp hcomparison) hv avoids)
  | site hF hG ha hp => exact hp.breaksOff valid closed values used hF hG ha failure

/-- Every failure in an answer of a valid framework. -/
theorem Framework.failures_explain (asked : ∀ a ∈ F.adjectives, a.isComparison = false → valued a)
    {settings : Settings} {node : N} {adjective : String} {other : Option N} {x : Argument}
    (answered : F.explain settings node adjective other = .ok x) :
    ∀ p ∈ x.proof.preorder, p.isFailure = true → F.BreaksOff bad p ∨ F.ComparesAlone valued p := by
  obtain ⟨a, goal, ha, hgoal, rfl⟩ := explain_eq_ok.mp answered
  have hdefined : F.adjective? a.name = some a := (adjective?_name ha).symm ▸ ha
  have suits : goal.Suits F valued := by
    unfold Adjective.goal at hgoal
    split at hgoal
    · rename_i hcomparison
      cases hgoal
      exact ⟨a, hdefined, hcomparison⟩
    · cases hgoal
    · cases hgoal
    · rename_i hcomparison
      cases hgoal
      exact ⟨a, hdefined, asked a (adjective?_mem ha) hcomparison⟩
  have sustains : F.Sustains (Goal.Suits F valued)
      fun p => p.isFailure = true → F.BreaksOff bad p ∨ F.ComparesAlone valued p := {
    plain := Proof.plain_failures
    puts := fun p hp => hp.breaksOff valid closed values used
    asks := fun _ ha' g hg => hg.suits valid used ha'
    tactics := fun b _ p hp => Tactic.failures_applyAll b.tactics hp }
  exact sustains.explanation Proof.plain_failures Proof.blind_failures
    (fun p hp => Tactic.failures_applyAll F.tactics hp) settings suits

end Failures

/-! ### What validation promises -/

/-- References are sound. Values depend on one another over a comparison at most, so that every evaluation is brought
to its end within two levels; none of the errors on the way is about a name that is not defined, or that is used as
what it is not; and explanations come to no such name either. -/
structure Framework.RefersSoundly (F : Framework N) : Prop where
  nesting : ∀ a b c, F.Needs a b → F.Needs b c → a.kind.origin = .rank ∧ b.kind.origin = .comparison ∧
    c.kind.origin = .quantitative ∧ ∀ d, ¬F.Needs c d
  evaluates : ∀ name node, Settled (F.evaluate name node) ∧
    ∀ depth, F.evaluateWithin (depth + 2) name node = F.evaluate name node
  compares : ∀ name node other, Settled (F.compare name node other) ∧
    ∀ depth, F.compareBy (F.evaluateWithin (depth + 1)) name node other = F.compare name node other
  values : ∀ name a, F.adjective? name = some a → a.isComparison = false →
    ∀ node e, F.evaluate name node = .error e → e.Avoids isMisuse
  comparisons : ∀ name a, F.adjective? name = some a → a.isComparison = true →
    ∀ node other e, F.compare name node other = .error e → e.Avoids isMisuse
  explanations : ∀ settings node adjective other x, F.explain settings node adjective other = .ok x →
    ∀ p ∈ x.proof.preorder, p.isFailure = true → F.BreaksOff isMisreference p ∨ F.ComparesAlone (fun _ => True) p

theorem Framework.evaluate_misreference {F : Framework N} (valid : F.validate = .ok ()) {name : String}
    {a : Adjective N} (ha : F.adjective? name = some a) (node : N) :
    Errs (Avoids isMisreference) (F.evaluate name node) := by
  cases hk : a.isComparison with
  | true =>
    obtain ⟨depth, hdepth⟩ := evaluate_eq_within ha
    rw [hdepth, evaluateWithin_comparison ha hk]
    exact Errs.error (avoids_own rfl rfl)
  | false => exact evaluate_errs closed_isMisreference valid ha hk node

theorem Framework.refersSoundly_of_validate {F : Framework N} (valid : F.validate = .ok ()) : F.RefersSoundly where
  nesting _ _ _ := needs_nesting valid
  evaluates name node := ⟨evaluate_settled valid name node, fun depth => evaluate_room valid depth name node⟩
  compares name node other :=
    ⟨compare_settled valid name node other, fun depth => compare_room valid depth name node other⟩
  values _ _ ha hk node := evaluate_errs closed_isMisuse valid ha hk node
  comparisons _ _ ha hk node other := compare_errs closed_isMisuse valid ha hk node other
  explanations _ _ _ _ _ answered := failures_explain valid closed_isMisreference
    (fun ha _ node => evaluate_misreference valid ha node) (fun _ _ _ _ _ _ _ _ => trivial) (fun _ _ _ => trivial)
    answered

/-- A framework in which one explanation possesses a comparison, and another one compares where there is one node
only. -/
def Coin.duel : Framework Coin where
  nodeWord := "side"
  adjectives := [
    { name := "worth", kind := .quantitative, getter := some fun c => .ok (.number (Number.zero (c == tails))) },
    { name := "better", kind := .comparison "worth" .greater },
    { name := "lucky", kind := .boolean, getter := some fun c => .ok (.bool (c == heads))
      explanation := some (.possess "better" none true true) },
    { name := "fair", kind := .boolean, getter := some fun _ => .ok (.bool true)
      explanation := some (.compared "worth") }]

theorem Coin.duel_refersSoundly : Coin.duel.validate = .ok () ∧ Coin.duel.RefersSoundly :=
  ⟨rfl, Framework.refersSoundly_of_validate rfl⟩

/-- Templates only possess what has a value on one node, and only those of comparisons compare the nodes of a goal. -/
structure Framework.Shaped {N : Type} (F : Framework N) : Prop where
  possessed : ∀ a ∈ F.adjectives, ∀ reference ∈ a.template.references, reference.2 = .any →
    ∀ b ∈ F.adjective? reference.1, b.isComparison = false
  compared : ∀ a ∈ F.adjectives, a.isComparison = false →
    ∀ reference ∈ a.template.references, reference.2 ≠ .quantitative

omit [Node N] in
theorem Framework.Shaped.valued {F : Framework N} (shaped : F.Shaped) (valid : F.validate = .ok ()) :
    ∀ a ∈ F.adjectives, ∀ name role, (name, role) ∈ a.template.references → role ≠ Role.comparison →
      ∀ b, F.adjective? name = some b → b.isComparison = false := by
  intro a ha name role h hrole b hb
  cases role with
  | any => exact shaped.possessed a ha _ h rfl b hb
  | comparison => exact absurd rfl hrole
  | _ =>
    obtain ⟨target, ht, hadmits⟩ := validate_references valid ha (List.mem_append_right _ h)
    cases ht.symm.trans hb
    unfold Adjective.isComparison
    cases hk : b.kind <;> rw [hk] at hadmits <;> first | rfl | cases hadmits

/-- In a valid framework with such templates no explanation breaks off for a second node that is missing. -/
theorem Framework.breaksOff_of_shaped {F : Framework N} (valid : F.validate = .ok ()) (shaped : F.Shaped)
    {settings : Settings} {node : N} {adjective : String} {other : Option N} {x : Argument}
    (answered : F.explain settings node adjective other = .ok x) :
    ∀ p ∈ x.proof.preorder, p.isFailure = true → F.BreaksOff isMisuse p := by
  intro p hp failure
  have found : F.BreaksOff isMisuse p ∨ F.ComparesAlone (fun a => a.isComparison = false) p :=
    failures_explain valid closed_isMisuse (fun ha hk node => evaluate_errs closed_isMisuse valid ha hk node)
      (shaped.valued valid) (fun _ _ hk => hk) answered p hp failure
  refine found.resolve_right fun alone => ?_
  cases alone with
  | intro defined asked h _ => exact shaped.compared _ (adjective?_mem defined) asked _ h rfl

theorem Coin.breaksOff_reverse : ∃ x, Coin.framework.explain { explanationDepth := 3 } .heads "reverse" = .ok x ∧
    Coin.framework.Shaped ∧ ∀ p ∈ x.proof.preorder, p.isFailure = true → Coin.framework.BreaksOff isMisuse p := by
  have shaped : Coin.framework.Shaped := by
    constructor <;> decide
  obtain ⟨x, answered⟩ : ∃ x, Coin.framework.explain { explanationDepth := 3 } .heads "reverse" = .ok x := ⟨_, rfl⟩
  exact ⟨x, answered, shaped, Framework.breaksOff_of_shaped rfl shaped answered⟩

/-- Validation alone does not keep explanations from breaking off for their shape. -/
theorem Coin.duel_breaks_off : Coin.duel.validate = .ok () ∧
    (∃ x, Coin.duel.explain { explanationDepth := 3 } .heads "lucky" = .ok x ∧
      Proof.cannotEvaluate "better" Coin.heads (.requiresTwoNodes "better") ∈ x.proof.preorder) ∧
    ∃ x, Coin.duel.explain { explanationDepth := 3 } .heads "fair" = .ok x ∧
      Proof.unpaired "worth" ∈ x.proof.preorder := by
  refine ⟨rfl, ⟨_, rfl, ?_⟩, _, rfl, ?_⟩
  · exact .tail _ (.head _)
  · exact .tail _ (.head _)

end Rationale
