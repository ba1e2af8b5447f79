import Rationale.Proofs.Evaluation
import Rationale.Proofs.Groups

/-!
What an explanation concludes. The expansion of a goal ends in a failure or in the verdict on the goal, which is stated
alone or drawn from a premise, and no tactic takes the verdict away: a tactic may shorten the premise, replace it or
leave nothing of it, but the claim at the root stays. So an explanation concludes what the framework evaluates, whatever
its tactics are.
-/

namespace Rationale

namespace Proof

/-- The proof states the claim, or draws it from a premise. -/
inductive Establishes (c : Claim) : Proof → Prop
  | stated : Establishes c (.claim c)
  | drawn (premise : Proof) (depth : Nat) (origin : Origin) : Establishes c (.implies premise c depth origin)

theorem Establishes.conclusion {c : Claim} {p : Proof} (h : p.Establishes c) : p.conclusion? = some c := by
  cases h <;> rfl

/-- The proof states the claim, or draws it on a level. -/
inductive EstablishesOn (c : Claim) (d : Nat) : Proof → Prop
  | stated : EstablishesOn c d (.claim c)
  | drawn (premise : Proof) (origin : Origin) : EstablishesOn c d (.implies premise c d origin)

theorem establishes_iff {c : Claim} {p : Proof} : p.Establishes c ↔ ∃ d, p.EstablishesOn c d := by
  constructor
  · rintro (_ | ⟨premise, d, o⟩)
    · exact ⟨0, .stated⟩
    · exact ⟨d, .drawn premise o⟩
  · rintro ⟨d, _ | ⟨premise, o⟩⟩
    · exact .stated
    · exact .drawn premise d o

theorem establishesOn_because (premise : Option Proof) (c : Claim) (d : Nat) (o : Origin) :
    (because premise c d o).EstablishesOn c d := by
  cases premise with
  | none => exact .stated
  | some p => exact .drawn p o

theorem establishes_because (premise : Option Proof) (c : Claim) (d : Nat) (o : Origin) :
    (because premise c d o).Establishes c := establishes_iff.mpr ⟨d, establishesOn_because premise c d o⟩

theorem substituteQuantities_of_other {phrase : String} {p : Proof} (other : p.isQuantitative = false) :
    p.substituteQuantities phrase = substituteQuantities.inside phrase p := by
  unfold substituteQuantities
  split
  · rw [if_neg (beq_eq_false_iff_ne.mp other)]
  · rfl

namespace EstablishesOn

variable {c : Claim} {d : Nat} {p : Proof}

theorem transformUp {f : Proof → Proof} (stated : f (.claim c) = .claim c)
    (drawn : ∀ p o, (f (.implies p c d o)).EstablishesOn c d) (h : p.EstablishesOn c d) :
    (p.transformUp f).EstablishesOn c d := by
  cases h with
  | stated =>
    rw [transformUp_claim, stated]
    exact .stated
  | drawn premise o =>
    rw [transformUp_implies]
    exact drawn _ o

theorem rewrite {f : Proof → Option Proof} (replaced : ∀ p, p.EstablishesOn c d → ∀ q ∈ f p, q.EstablishesOn c d)
    (h : p.EstablishesOn c d) : (p.rewrite f).EstablishesOn c d := by
  rw [rewrite_eq]
  cases hf : f p with
  | some q => exact replaced p h q hf
  | none =>
    cases h with
    | stated => exact .stated
    | drawn premise o => exact .drawn _ o

theorem normalize (h : p.EstablishesOn c d) : p.normalize.EstablishesOn c d := by
  refine h.transformUp rfl fun p o => ?_
  rw [normalStep]
  split
  · exact .stated
  · exact .drawn p o

/-- A justified quantity at the root keeps its conclusion; only those inside give way to the phrase. -/
theorem substituteQuantities (phrase : String) (h : p.EstablishesOn c d) :
    (p.substituteQuantities phrase).EstablishesOn c d := by
  cases hq : p.isQuantitative with
  | false =>
    rw [substituteQuantities_of_other hq]
    refine transformUp rfl (fun p o => .drawn p o) ?_
    rw [rewrite_eq, hq]
    cases h with
    | stated => exact .stated
    | drawn premise o => exact .drawn _ o
  | true =>
    cases h with
    | stated => cases hq
    | drawn premise o =>
      rw [Proof.substituteQuantities, if_pos (beq_iff_eq.mp hq)]
      exact .drawn _ o

end EstablishesOn

end Proof

namespace Tactic

variable {c : Claim} {d : Nat} {p : Proof}

theorem establishesOn_apply (t : Tactic) (h : p.EstablishesOn c d) : (t.apply p).EstablishesOn c d := by
  refine Proof.EstablishesOn.normalize ?_
  cases t with
  | onlyRelevant mode => exact h.transformUp rfl fun p o => .drawn p o
  | skipQuantitative =>
    refine h.rewrite fun p hp q hq => ?_
    cases hp with
    | stated => cases hq
    | drawn premise o =>
      rw [Proof.bareQuantity?] at hq
      split at hq
      · cases hq
        exact .stated
      · cases hq
  | substituteQuantitative phrase => exact h.substituteQuantities phrase
  | compactSame => exact h.transformUp rfl fun p o => .drawn p o
  | skipCondition exceptOn => exact h.transformUp rfl fun p o => .drawn p o

theorem establishesOn_applyAll (ts : List Tactic) (h : p.EstablishesOn c d) : (applyAll ts p).EstablishesOn c d := by
  induction ts generalizing p with
  | nil => exact h
  | cons t ts ih => exact ih (t.establishesOn_apply h)

theorem conclusion_applyAll_because (ts : List Tactic) (premise : Option Proof) (c : Claim) (d : Nat) (o : Origin) :
    (applyAll ts (.because premise c d o)).conclusion? = some c :=
  (Proof.establishes_iff.mpr ⟨d, establishesOn_applyAll ts (Proof.establishesOn_because premise c d o)⟩).conclusion

theorem establishes_apply (t : Tactic) (h : p.Establishes c) : (t.apply p).Establishes c := by
  obtain ⟨d, h⟩ := Proof.establishes_iff.mp h
  exact Proof.establishes_iff.mpr ⟨d, t.establishesOn_apply h⟩

/-- A leaf that is a claim or a failure is left alone. -/
theorem applyAll_leaf (ts : List Tactic) (h : (∃ c, p = .claim c) ∨ ∃ text, p = .failure text) :
    applyAll ts p = p := by
  induction ts with
  | nil => rfl
  | cons t ts ih =>
    have kept : t.apply p = p := by
      rw [apply]
      cases t with
      | skipQuantitative =>
        rw [rewrite, Proof.rewrite_eq]
        rcases h with ⟨c, rfl⟩ | ⟨text, rfl⟩ <;> rfl
      | substituteQuantitative phrase =>
        have other : p.isQuantitative = false := by rcases h with ⟨c, rfl⟩ | ⟨text, rfl⟩ <;> rfl
        rw [rewrite, Proof.substituteQuantities_of_other other, Proof.substituteQuantities.inside, Proof.rewrite_eq,
          other]
        rcases h with ⟨c, rfl⟩ | ⟨text, rfl⟩ <;> rfl
      | _ => rcases h with ⟨c, rfl⟩ | ⟨text, rfl⟩ <;> rfl
    rw [applyAll, List.foldl_cons, kept]
    exact ih

end Tactic

/-! ### Expansions -/

variable {N : Type} [Node N]

namespace Framework

variable {F : Framework N} {settings : Settings}

section Expand
variable {beyond : Goal N → Proof} {levels level : Nat} {path : List (Goal N)} {goal : Goal N} {a : Adjective N}
  (ha : F.adjective? goal.adjective = some a) (uncut : path.any (·.same goal) = false)

include ha uncut

variable (settings beyond levels level) in
/-- A goal that is not being expanded already is expanded to the verdict on it, because of what the template of its
adjective gives at its site, under the tactics of the adjective. -/
theorem expand_of_verdict {c : Claim} (hc : F.verdict a goal = .ok c) :
    ∃ s : Site N, s.framework = F ∧ s.settings = settings ∧ s.goal = goal ∧ s.level = level ∧ s.levelsBelow = levels ∧
      s.beyond = beyond ∧ (∀ skipped g,
        s.below skipped g = F.expand settings beyond levels skipped (level + 1 + skipped) (path ++ [goal]) g) ∧
      F.expand settings beyond (levels + 1) 0 level path goal
        = Tactic.applyAll a.tactics (.because (a.template.fill s) c level ⟨a.name, a.kind.origin⟩) := by
  rw [expand, expandGoal_of_ok ha uncut hc]
  exact ⟨_, rfl, rfl, rfl, rfl, rfl, rfl, fun _ _ => rfl, rfl⟩

theorem establishesOn_expand {c : Claim} (hc : F.verdict a goal = .ok c) :
    (F.expand settings beyond (levels + 1) 0 level path goal).EstablishesOn c level := by
  obtain ⟨s, -, -, -, -, -, -, -, hexpand⟩ := expand_of_verdict _ _ _ _ ha uncut hc
  rw [hexpand]
  exact Tactic.establishesOn_applyAll _ (Proof.establishesOn_because _ _ _ _)

theorem expand_undecided {e : EvaluationError} (he : F.verdict a goal = .error e) :
    F.expand settings beyond (levels + 1) 0 level path goal = .cannotEvaluate goal.adjective goal.node e := by
  rw [expand, expandGoal, ha]
  dsimp only
  rw [uncut, he]
  rfl

end Expand

/-- What the proof of a goal concludes is the verdict on it, unless the goal is left open. -/
theorem verdict_of_conclusion {levels level : Nat} {path : List (Goal N)} {goal : Goal N} {c : Claim}
    (h : (F.expand settings Goal.unresolved levels 0 level path goal).conclusion? = some c) :
    c = .unresolved (Node.label goal.node) goal.title ∨
      ∃ a, F.adjective? goal.adjective = some a ∧ F.verdict a goal = .ok c := by
  cases levels with
  | zero =>
    rw [expand] at h
    cases h
    exact .inl rfl
  | succ levels =>
    rw [expand] at h
    revert h
    -- Where a goal comes to no verdict it ends in a failure, which concludes nothing.
    refine expandGoal_cases (motive := fun p => p.conclusion? = some c → _) ?unknown ?circular ?undecided ?explained
    case unknown =>
      intro undefined h
      cases h
    case circular =>
      intro a ha cut h
      cases h
    case undecided =>
      intro a e ha he h
      obtain ⟨text, htext⟩ := Proof.cannotEvaluate_eq goal.adjective goal.node e
      rw [htext] at h
      cases h
    case explained =>
      intro a c' ha uncut hc h
      rw [Tactic.conclusion_applyAll_because] at h
      cases h
      exact .inr ⟨a, ha, hc⟩

theorem evaluate_defined {name : String} {node : N} {v : Value N} (h : F.evaluate name node = .ok v) :
    ∃ a, F.adjective? name = some a ∧ a.isComparison = false := by
  cases ha : F.adjective? name with
  | none =>
    rw [evaluate, evaluateWithin_unknown ha] at h
    cases h
  | some a =>
    refine ⟨a, rfl, ?_⟩
    cases hk : a.isComparison with
    | false => rfl
    | true =>
      rw [evaluate, evaluateWithin_comparison ha hk] at h
      cases h

theorem compare_defined {name : String} {node other : N} {holds : Bool} (h : F.compare name node other = .ok holds) :
    ∃ c, F.adjective? name = some c ∧ c.isComparison = true := by
  cases hc : F.adjective? name with
  | none =>
    rw [compare, compareBy_unknown hc] at h
    cases h
  | some c =>
    refine ⟨c, rfl, ?_⟩
    cases hk : c.isComparison with
    | true => rfl
    | false =>
      rw [compare, compareBy_other hc hk] at h
      cases h

/-! ### Explanations -/

theorem explain_value {a : Adjective N} {name : String} (ha : F.adjective? name = some a)
    (hk : a.isComparison = false) (node : N) : F.explain settings node name
      = .ok ⟨F.explanation settings (.value name node), settings.renderOptions⟩ := by
  refine explain_eq_ok.mpr ⟨a, _, ha, ?_, rfl⟩
  have named := adjective?_name ha
  simp only [Adjective.goal, hk, named]

theorem explain_comparison {a : Adjective N} {name : String} (ha : F.adjective? name = some a)
    (hk : a.isComparison = true) (node other : N) : F.explain settings node name (some other)
      = .ok ⟨F.explanation settings (.comparison name node other), settings.renderOptions⟩ := by
  refine explain_eq_ok.mpr ⟨a, _, ha, ?_, rfl⟩
  have named := adjective?_name ha
  simp only [Adjective.goal, hk, named]

section Explanation
variable (goal : Goal N) {a : Adjective N} (ha : F.adjective? goal.adjective = some a)

theorem explanation_unresolved (shallow : settings.explanationDepth = 0) (goal : Goal N) :
    F.explanation settings goal = goal.unresolved := by
  rw [explanation, shallow, expand, Goal.unresolved, Tactic.applyAll_leaf _ (.inl ⟨_, rfl⟩)]
  rfl

variable (deep : 0 < settings.explanationDepth)

include ha deep

theorem establishesOn_explanation {c : Claim} (hc : F.verdict a goal = .ok c) :
    (F.explanation settings goal).EstablishesOn c 1 := by
  obtain ⟨levels, hlevels⟩ := Nat.exists_eq_add_one.mpr deep
  rw [explanation, hlevels]
  exact (Tactic.establishesOn_applyAll F.tactics (establishesOn_expand ha rfl hc)).normalize

theorem conclusion_explanation {c : Claim} (hc : F.verdict a goal = .ok c) :
    (F.explanation settings goal).conclusion? = some c :=
  (Proof.establishes_iff.mpr ⟨1, establishesOn_explanation goal ha deep hc⟩).conclusion

theorem explanation_undecided {e : EvaluationError} (he : F.verdict a goal = .error e) :
    F.explanation settings goal = .cannotEvaluate goal.adjective goal.node e := by
  obtain ⟨levels, hlevels⟩ := Nat.exists_eq_add_one.mpr deep
  obtain ⟨text, htext⟩ := Proof.cannotEvaluate_eq goal.adjective goal.node e
  rw [explanation, hlevels, expand_undecided ha rfl he, htext, Tactic.applyAll_leaf _ (.inr ⟨text, rfl⟩)]
  rfl

end Explanation

end Framework

/-- With some level to expand, an explanation concludes what the framework evaluates, and is nothing but a failure if
there is nothing that it evaluates. -/
structure Framework.Concludes (F : Framework N) (settings : Settings) : Prop where
  value : ∀ {adjective node v}, F.evaluate adjective node = .ok v →
    ∃ a x, F.adjective? adjective = some a ∧ F.explain settings node adjective = .ok x ∧
      x.proof.conclusion? = some (a.claim node v)
  comparison : ∀ {adjective node other holds}, F.compare adjective node other = .ok holds →
    ∃ x, F.explain settings node adjective (some other) = .ok x ∧ x.proof.conclusion? =
      some (Claim.withTruth ⟨Node.label node, .compared adjective (Node.label other), false⟩ holds)
  valueless : ∀ {adjective a node e}, F.adjective? adjective = some a → a.isComparison = false →
    F.evaluate adjective node = .error e →
    ∃ x, F.explain settings node adjective = .ok x ∧ x.proof = .cannotEvaluate adjective node e ∧
      ∃ text, x.proof = .failure text
  incomparable : ∀ {adjective a node other e}, F.adjective? adjective = some a → a.isComparison = true →
    F.compare adjective node other = .error e →
    ∃ x, F.explain settings node adjective (some other) = .ok x ∧ x.proof = .cannotEvaluate adjective node e ∧
      ∃ text, x.proof = .failure text

/-- Explanations are nothing but placeholders. -/
structure Framework.LeavesOpen (F : Framework N) (settings : Settings) : Prop where
  value : ∀ {adjective a}, F.adjective? adjective = some a → a.isComparison = false → ∀ node,
    ∃ x, F.explain settings node adjective = .ok x ∧ x.proof = .claim (.unresolved (Node.label node) adjective)
  comparison : ∀ {adjective a}, F.adjective? adjective = some a → a.isComparison = true → ∀ node other,
    ∃ x, F.explain settings node adjective (some other) = .ok x ∧
      x.proof = .claim (.unresolved (Node.label node) (adjective ++ " than " ++ Node.label other))

/-- Whatever tactics a framework and its adjectives have, explanations conclude what the framework evaluates. -/
theorem Framework.explain_concludes (F : Framework N) (settings : Settings) :
    (0 < settings.explanationDepth → F.Concludes settings) ∧
      (settings.explanationDepth = 0 → F.LeavesOpen settings) := by
  refine ⟨fun deep => ?_, fun shallow => ?_⟩
  · constructor
    · intro adjective node v hv
      obtain ⟨a, ha, hk⟩ := evaluate_defined hv
      have verdict : F.verdict a (.value adjective node) = .ok (a.claim node v) := by
        rw [verdict, hv]
        rfl
      exact ⟨a, _, ha, explain_value ha hk node, conclusion_explanation (.value _ _) ha deep verdict⟩
    · intro adjective node other holds hv
      obtain ⟨c, hc, hk⟩ := compare_defined hv
      have verdict : F.verdict c (.comparison adjective node other) = .ok
          (Claim.withTruth ⟨Node.label node, .compared adjective (Node.label other), false⟩ holds) := by
        rw [verdict, hv]
        rfl
      exact ⟨_, explain_comparison hc hk node other, conclusion_explanation (.comparison _ _ _) hc deep verdict⟩
    · intro adjective a node e ha hk he
      have verdict : F.verdict a (.value adjective node) = .error e := by
        rw [verdict, he]
        rfl
      have failed := explanation_undecided (.value _ _) ha deep verdict
      exact ⟨_, explain_value ha hk node, failed, failed ▸ Proof.cannotEvaluate_eq adjective node e⟩
    · intro adjective a node other e ha hk he
      have verdict : F.verdict a (.comparison adjective node other) = .error e := by
        rw [verdict, he]
        rfl
      have failed := explanation_undecided (.comparison _ _ _) ha deep verdict
      exact ⟨_, explain_comparison ha hk node other, failed, failed ▸ Proof.cannotEvaluate_eq adjective node e⟩
  · constructor
    · intro adjective a ha hk node
      exact ⟨_, explain_value ha hk node, explanation_unresolved shallow (.value adjective node)⟩
    · intro adjective a ha hk node other
      exact ⟨_, explain_comparison ha hk node other, explanation_unresolved shallow (.comparison adjective node other)⟩

theorem Suit.concludes_under_tactics :
    (∃ x, (framework [.skipQuantitative, .compactSame, .onlyRelevant (.top 1)]).explain { explanationDepth := 2 }
        clubs "best" = .ok x ∧ x.proof.conclusion? = some ⟨"clubs", .is "best", true⟩) ∧
      ∃ x, (framework [.substituteQuantitative "it is better"]).explain { explanationDepth := 0 } clubs "best" = .ok x ∧
        x.proof = .claim (.unresolved "clubs" "best") := by
  have concludes : (framework [.skipQuantitative, .compactSame, .onlyRelevant (.top 1)]).Concludes
      { explanationDepth := 2 } := (Framework.explain_concludes _ _).1 (by decide)
  have leavesOpen : (framework [.substituteQuantitative "it is better"]).LeavesOpen { explanationDepth := 0 } :=
    (Framework.explain_concludes _ _).2 rfl
  refine ⟨?_, leavesOpen.value rfl rfl clubs⟩
  have evaluated : (framework [.skipQuantitative, .compactSame, .onlyRelevant (.top 1)]).evaluate "best" clubs
      = .ok (.bool false) := rfl
  obtain ⟨a, x, ha, answered, concluded⟩ := concludes.value evaluated
  cases ha
  exact ⟨x, answered, concluded⟩

end Rationale
