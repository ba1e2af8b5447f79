import Rationale.Proofs.Clear
import Rationale.Proofs.Conclusions
import Rationale.Proofs.Room

/-!
Ranks and their proofs. The value of a rank comes from a loop over the members of its group that stops at the first
member that does not agree; what its proof says about the group comes from counting over all members; and each member
has a proof of its own. The three agree: the group is the same, the conclusion about it is the value of the rank
wherever every comparison has one, and an open conclusion only stands under a rank that does not hold.
-/

namespace Rationale

variable {N : Type} [Node N]

namespace RankKind

variable {k : RankKind} {compare compare' : N → Except EvaluationError Bool} {members : List N} {t : Bool}

omit [Node N] in
theorem verdict_extends (h : ∀ m holds, compare m = .ok holds → compare' m = .ok holds)
    (ht : k.verdict compare members = .ok t) : k.verdict compare' members = .ok t := by
  induction members with
  | nil => exact ht
  | cons m rest ih =>
    rw [verdict] at ht ⊢
    obtain ⟨holds, hm, ht⟩ := bind_eq_ok.mp ht
    refine bind_eq_ok.mpr ⟨holds, h m holds hm, ?_⟩
    split at ht
    · rename_i agrees
      rw [if_pos agrees]
      exact ih ht
    · rename_i agrees
      rw [if_neg agrees]
      exact ht

omit [Node N] in
/-- A rank holds if every comparison agrees; it does not hold if one does not agree, whatever comes after that. -/
theorem verdict_cases (ht : k.verdict compare members = .ok t) :
    (t = true ∧ ∀ m ∈ members, ∃ holds, compare m = .ok holds ∧ k.agrees holds = true) ∨
      (t = false ∧ ∃ m ∈ members, ∃ holds, compare m = .ok holds ∧ k.agrees holds = false) := by
  induction members with
  | nil =>
    cases ht
    exact .inl ⟨rfl, fun _ hm => by cases hm⟩
  | cons m rest ih =>
    rw [verdict] at ht
    obtain ⟨holds, hm, ht⟩ := bind_eq_ok.mp ht
    split at ht
    · rename_i agrees
      rcases ih ht with ⟨rfl, hall⟩ | ⟨rfl, m', hm', hdiffers⟩
      · exact .inl ⟨rfl, List.forall_mem_cons.mpr ⟨⟨holds, hm, agrees⟩, hall⟩⟩
      · exact .inr ⟨rfl, m', List.mem_cons_of_mem _ hm', hdiffers⟩
    · rename_i differs
      cases ht
      exact .inr ⟨rfl, m, List.mem_cons_self, holds, hm, Bool.eq_false_iff.mpr differs⟩

end RankKind

namespace Framework

variable {F : Framework N}

/-- What a rank evaluates to: a truth value, found by comparing with the members of its group in turn. -/
theorem evaluateWithin_rank {name comparison group : String} {kind : RankKind} {a : Adjective N}
    (ha : F.adjective? name = some a) (hk : a.kind = .rank kind comparison group) {depth : Nat} {node : N}
    {v : Value N} : F.evaluateWithin (depth + 1) name node = .ok v ↔
      ∃ members t, F.evaluateWithin depth group node = .ok (.nodes members) ∧
        kind.verdict (F.compareBy (F.evaluateWithin depth) comparison node) members = .ok t ∧ v = .bool t := by
  rw [evaluateWithin_rank_eq ha hk]
  constructor
  · intro h
    obtain ⟨members, hmembers, h⟩ := bind_eq_ok.mp h
    obtain ⟨t, ht, h⟩ := bind_eq_ok.mp h
    cases h
    refine ⟨members, t, Evaluation.group_eq_ok.mp (mapError_eq_ok.mp hmembers), ?_, rfl⟩
    exact RankKind.verdict_extends (fun m holds => mapError_eq_ok.mp) ht
  · rintro ⟨members, t, hmembers, ht, rfl⟩
    refine bind_eq_ok.mpr ⟨members, mapError_eq_ok.mpr (Evaluation.group_eq_ok.mpr hmembers), ?_⟩
    refine bind_eq_ok.mpr ⟨t, ?_, rfl⟩
    exact RankKind.verdict_extends (fun m holds => mapError_eq_ok.mpr) ht

theorem evaluate_rank_eq_ok {name comparison group : String} {kind : RankKind} {a : Adjective N}
    (ha : F.adjective? name = some a) (hk : a.kind = .rank kind comparison group) {node : N} {t : Bool}
    (h : F.evaluate name node = .ok (.bool t)) : ∃ members, F.evaluateGroup group node = .ok members ∧
      kind.verdict (F.compare comparison node) members = .ok t := by
  obtain ⟨members, t', hmembers, ht, heq⟩ := (evaluateWithin_rank ha hk).mp h
  cases heq
  -- The group and the comparisons are evaluated with one level less room there.
  have roomier {β : Type} {r r' : Except EvaluationError β} (h : Follows r r') {x : β} (hx : r = .ok x) : r' = .ok x :=
    (h (hx ▸ Errs.ok x)).trans hx
  have evaluated := F.evaluateWithin_follows F.adjectives.length
  refine ⟨members, Evaluation.group_eq_ok.mpr (roomier (evaluated _ _) hmembers), ?_⟩
  exact roomier (kind.verdict_follows (compareBy_follows evaluated _ _) members) ht

end Framework

section Conclusions
variable {s : Site N} {comparison group : String} {members : List N}

theorem Site.groupConclusion_open {positive : Bool}
    (h : ∃ m ∈ members, ∃ e, s.framework.compare comparison s.node m = .error e) :
    (s.groupConclusion comparison group positive
      (members.map (s.framework.compare comparison s.node))).isUnresolved = true := by
  obtain ⟨m, hm, e, he⟩ := h
  have failing : ((members.map (s.framework.compare comparison s.node)).any fun v => !v.isOk) = true := by
    refine List.any_eq_true.mpr ⟨_, List.mem_map_of_mem hm, ?_⟩
    rw [he]
    rfl
  unfold Site.groupConclusion
  rw [if_pos failing]
  rfl

/-- Counting over all members finds what the loop over them found. -/
theorem Site.groupConclusion_verdict {kind : RankKind} {t : Bool}
    (h : ∀ m ∈ members, ∃ holds, s.framework.compare comparison s.node m = .ok holds)
    (ht : kind.verdict (s.framework.compare comparison s.node) members = .ok t) :
    (s.groupConclusion comparison group (kind == .max)
      (members.map (s.framework.compare comparison s.node))).negated = !t := by
  -- The loop stops at the first member that does not agree; where none has an error, that is one that does not.
  have counted : t = true ↔ ∀ m ∈ members, ∃ holds, s.framework.compare comparison s.node m = .ok holds ∧
      kind.agrees holds = true := by
    rcases RankKind.verdict_cases ht with ⟨rfl, hall⟩ | ⟨rfl, m, hm, holds, hv, differs⟩
    · exact iff_of_true rfl hall
    · refine iff_of_false Bool.false_ne_true fun hall => ?_
      obtain ⟨holds', hv', agrees⟩ := hall m hm
      cases hv.symm.trans hv'
      rw [differs] at agrees
      cases agrees
  unfold Site.groupConclusion
  rw [if_neg (by rw [any_open_eq_false h]; exact Bool.false_ne_true)]
  cases kind with
  | max =>
    change (!(List.countP _ _ == _)) = !t
    congr 1
    rw [Bool.eq_iff_iff, counted, beq_iff_eq, List.countP_eq_length, List.forall_mem_map]
    refine forall₂_congr fun m hm => ?_
    obtain ⟨holds, hv⟩ := h m hm
    simp [hv, RankKind.agrees]
  | min =>
    change (!(List.countP _ _ == 0)) = !t
    congr 1
    rw [Bool.eq_iff_iff, counted, beq_iff_eq, List.countP_eq_zero, List.forall_mem_map]
    refine forall₂_congr fun m hm => ?_
    obtain ⟨holds, hv⟩ := h m hm
    simp [hv, RankKind.agrees]

end Conclusions

/-! ### Proofs of ranks -/

/-- If the proof concludes a comparison, then that of the two nodes, and with its truth value. -/
def Framework.Reports (F : Framework N) (comparison : String) (node other : N) (p : Proof) : Prop :=
  ∀ c name label, p.conclusion? = some c → c.predicate = .compared name label →
    ∃ holds, F.compare comparison node other = .ok holds ∧
      c = Claim.withTruth ⟨Node.label node, .compared comparison (Node.label other), false⟩ holds

/-- The comparison with the group of a rank that is `t` on a node: an entry for every member, in the order of the
group, each with what the comparison with this member gives, and a conclusion that is open only if one of them gives
nothing and the rank does not hold, and otherwise says the same as the rank. -/
inductive Framework.Weighs (F : Framework N) (comparison group : String) (node : N) (t : Bool) : Proof → Prop
  | group {members : List N} {conclusion : Claim} {membership : Option Proof} {entries : List (Member Proof)}
      {depth : Nat} (evaluated : F.evaluateGroup group node = .ok members)
      (entered : List.Forall₂ (fun m entry => entry.labels = [Node.label m] ∧ F.Reports comparison node m entry.proof)
        members entries)
      (undecided : conclusion.isUnresolved = true →
        t = false ∧ ∃ m ∈ members, ∃ e, F.compare comparison node m = .error e)
      (decided : conclusion.isUnresolved = false → conclusion.negated = !t) :
      F.Weighs comparison group node t (.group conclusion membership entries 0 depth ⟨comparison, .comparison⟩)

namespace Framework

variable {F : Framework N} {settings : Settings}

theorem Weighs.conjuncts {comparison group : String} {node : N} {t : Bool} {p : Proof}
    (h : F.Weighs comparison group node t p) : p.conjuncts = [p] := by
  cases h
  rfl

/-- The proof of a comparison reports what the comparison gives, if it gives anything and is not left open. -/
theorem reports_expand {comparison : String} {node other : N} {levels level : Nat} {path : List (Goal N)} :
    F.Reports comparison node other
      (F.expand settings Goal.unresolved levels 0 level path (.comparison comparison node other)) := by
  intro c name label hc hpredicate
  rcases verdict_of_conclusion hc with rfl | ⟨a, -, hv⟩
  · cases hpredicate
  · rw [verdict] at hv
    cases hholds : F.compare comparison node other with
    | error e =>
      rw [hholds] at hv
      cases hv
    | ok holds =>
      rw [hholds] at hv
      exact ⟨holds, rfl, (Except.ok.inj hv).symm⟩

/-- At a site with levels below, the comparison with the group of a rank agrees with its value. -/
theorem weighs_groupComparison {s : Site N} {comparison group : String} {kind : RankKind} {members : List N} {t : Bool}
    (pos : s.levelsBelow ≠ 0) (hmembers : s.framework.evaluateGroup group s.node = .ok members)
    (ht : kind.verdict (s.framework.compare comparison s.node) members = .ok t)
    (reports : ∀ m, s.framework.Reports comparison s.node m (s.below 0 (.comparison comparison s.node m))) :
    s.framework.Weighs comparison group s.node t (s.groupComparison comparison group (kind == .max)) := by
  rw [Site.groupComparison, if_neg pos, hmembers]
  refine .group hmembers ?_ (fun unresolved => ?_) fun resolved => ?_
  · rw [List.forall₂_map_right_iff, List.forall₂_same]
    exact fun m _ => ⟨rfl, reports m⟩
  · -- A conclusion is left open by an error only, and no rank holds that met an error or was decided before.
    have failing : ¬∀ m ∈ members, ∃ holds, s.framework.compare comparison s.node m = .ok holds := fun h => by
      rw [s.groupConclusion_resolved h] at unresolved
      cases unresolved
    refine ⟨?_, ?_⟩
    · rcases RankKind.verdict_cases ht with ⟨rfl, hall⟩ | ⟨rfl, -⟩
      · refine absurd (fun m hm => ?_) failing
        obtain ⟨holds, hv, -⟩ := hall m hm
        exact ⟨holds, hv⟩
      · rfl
    · by_contra none
      refine failing fun m hm => ?_
      cases hv : s.framework.compare comparison s.node m with
      | ok holds => exact ⟨holds, rfl⟩
      | error e => exact absurd ⟨m, hm, e, hv⟩ none
  · refine Site.groupConclusion_verdict (fun m hm => ?_) ht
    cases hv : s.framework.compare comparison s.node m with
    | ok holds => exact ⟨holds, rfl⟩
    | error e =>
      rw [Site.groupConclusion_open ⟨m, hm, e, hv⟩] at resolved
      cases resolved

end Framework

/-- What an assumption and a comparison with a group give together. -/
theorem Template.fill_assume_compareGroup {s : Site N} {assumption : Assumption} {comparison group : String}
    {positive : Bool} (single : (s.groupComparison comparison group positive).conjuncts
      = [s.groupComparison comparison group positive]) :
    Template.fill s (.all [.assume assumption, .compareGroup comparison group positive])
      = some (match s.assumption assumption with
        | none => s.groupComparison comparison group positive
        | some definition => .conj [definition, s.groupComparison comparison group positive]) := by
  rw [Template.fill, Template.fillAll_eq]
  simp only [List.filterMap_cons, List.filterMap_nil, Template.fill]
  rcases s.assumption_eq assumption with h | ⟨text, h⟩
  · simp only [h, Proof.all?, List.flatMap_cons, List.flatMap_nil, List.append_nil, single]
  · simp only [h, Proof.all?, List.flatMap_cons, List.flatMap_nil, List.append_nil, single]
    rfl

namespace Framework

variable {F : Framework N} {settings : Settings}

/-- Without an explanation of its own, a rank that has a value is explained by the comparison with its group alone,
after its definition where that is shown; and the comparison says what the value says. -/
theorem expand_rank {name comparison group : String} {kind : RankKind} {a : Adjective N}
    (ha : F.adjective? name = some a) (hk : a.kind = .rank kind comparison group) (implicit : a.explanation = none)
    (untouched : a.tactics = []) {level : Nat} (deep : level + 1 ≤ settings.explanationDepth) {path : List (Goal N)}
    {node : N} (uncut : path.any (·.same (.value name node)) = false) {t : Bool}
    (evaluated : F.evaluate name node = .ok (.bool t)) :
    ∃ premise comparisons, F.expand settings Goal.unresolved (settings.explanationDepth + 1 - level) 0 level path
        (.value name node)
          = .implies premise (Claim.withTruth ⟨Node.label node, .is name, false⟩ t) level ⟨name, .rank⟩ ∧
      F.Weighs comparison group node t comparisons ∧
      ∃ s : Site N, s.framework = F ∧ s.settings = settings ∧ s.level = level ∧
        premise = match s.assumption (.rank kind name comparison group) with
          | none => comparisons
          | some definition => .conj [definition, comparisons] := by
  obtain ⟨members, hmembers, ht⟩ := evaluate_rank_eq_ok ha hk evaluated
  obtain ⟨levels, hlevels⟩ : ∃ levels, settings.explanationDepth + 1 - level = levels + 2 :=
    ⟨settings.explanationDepth - 1 - level, by omega⟩
  have hname := adjective?_name ha
  have verdict : F.verdict a (.value name node) = .ok (Claim.withTruth ⟨Node.label node, .is name, false⟩ t) := by
    rw [verdict, evaluated]
    simp only [Except.map, Adjective.claim, hk, hname]
  have template : a.template = .all [.assume (.rank kind name comparison group),
      .compareGroup comparison group (kind == .max)] := by
    simp only [Adjective.template, implicit, hk, hname]
  have defined : F.adjective? (Goal.value name node).adjective = some a := ha
  -- There is a level below, so the template of the rank is filled in at a site, and its comparisons are made there.
  obtain ⟨s, rfl, hsettings, hgoal, hlevel, hlevelsBelow, -, hbelow, hexpand⟩ :=
    expand_of_verdict settings Goal.unresolved (levels + 1) level defined uncut verdict
  obtain rfl : s.node = node := by rw [Site.node, hgoal]; rfl
  have weighs := weighs_groupComparison (by rw [hlevelsBelow]; exact Nat.succ_ne_zero _) hmembers ht fun m => by
    rw [hbelow]
    exact reports_expand
  refine ⟨_, _, ?_, weighs, s, rfl, hsettings, hlevel, rfl⟩
  rw [hlevels, hexpand, untouched, template, Template.fill_assume_compareGroup weighs.conjuncts, hname, hk]
  rfl

end Framework

/-- Clubs are not the best suit, since they are not better than spades. -/
theorem Suit.expand_best :
    ∃ premise comparisons, (framework []).expand { explanationDepth := 2 } Goal.unresolved 2 0 1 []
        (.value "best" clubs) = .implies premise ⟨"clubs", .is "best", true⟩ 1 ⟨"best", .rank⟩ ∧
      (framework []).Weighs "better" "rest" clubs false comparisons ∧
      ∃ s : Site Suit, s.framework = framework [] ∧ s.settings = { explanationDepth := 2 } ∧ s.level = 1 ∧
        premise = match s.assumption (.rank .max "best" "better" "rest") with
          | none => comparisons
          | some definition => .conj [definition, comparisons] := by
  have evaluated : (framework []).evaluate "best" clubs = .ok (.bool false) := by rfl
  have deep : 1 + 1 ≤ Settings.explanationDepth { explanationDepth := 2 } := by decide
  exact Framework.expand_rank rfl rfl rfl rfl deep rfl evaluated

end Rationale
