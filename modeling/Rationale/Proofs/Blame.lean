import Rationale.Proofs.Ranks
import Rationale.Proofs.References

/-!
What the errors of values blame. In a valid framework a comparison fails just as its base does on one of the two nodes,
and a rank as its group does, or as the comparison with the first member that leaves it open. So an error that was
passed on comes from a value of its own on one of the nodes that were asked about, and every adjective that passed it on
names the one that it has it from.
-/

namespace Rationale

namespace EvaluationError

/-- The adjective that an error is about. -/
def adjective : EvaluationError → String
  | .missingGetter adjective => adjective
  | .getter adjective _ _ => adjective
  | .unexpectedValue adjective _ _ _ => adjective
  | .requiresTwoNodes adjective => adjective
  | .notAComparison adjective => adjective
  | .unknownReference adjective => adjective
  | .endless adjective => adjective
  | .dependent adjective _ _ _ => adjective

/-- The error at the end of the chain. -/
def root : EvaluationError → EvaluationError
  | .dependent _ _ _ cause => cause.root
  | e => e

/-- How often an error was passed on. -/
def layers : EvaluationError → Nat
  | .dependent _ _ _ cause => cause.layers + 1
  | _ => 0

/-- The errors of a value that is fetched for a node. -/
inductive Own (adjective node : String) : EvaluationError → Prop
  | missingGetter : Own adjective node (.missingGetter adjective)
  | getter {cause : GetterError} : Own adjective node (.getter adjective node cause)
  | unexpectedValue {expected found : ValueKind} : Own adjective node (.unexpectedValue adjective node expected found)

variable {adjective node : String} {e : EvaluationError}

theorem Own.layers_eq (h : e.Own adjective node) : e.layers = 0 := by
  cases h <;> rfl

theorem Own.root_eq (h : e.Own adjective node) : e.root = e := by
  cases h <;> rfl

theorem Own.adjective_eq (h : e.Own adjective node) : e.adjective = adjective := by
  cases h <;> rfl

theorem Own.rootAdjective_eq (h : e.Own adjective node) : e.rootAdjective = adjective := by
  cases h <;> rfl

end EvaluationError

open EvaluationError

variable {N : Type} [Node N]

/-! ### Fetched values -/

section Fetched
variable {a : Adjective N} {node : N}

theorem Value.kind_without (v : Value N) (k : AdjectiveKind) : (v.without node k).kind = v.kind := by
  unfold Value.without
  split
  · split <;> rfl
  · rfl

theorem Adjective.fetch_own {e : EvaluationError} (h : a.fetch node = .error e) : e.Own a.name (Node.label node) := by
  unfold Adjective.fetch at h
  split at h
  · cases h
    exact .missingGetter
  · split at h
    · cases h
      exact .getter
    · split at h
      · cases h
      · cases h
        exact .unexpectedValue

theorem Adjective.fetch_admits {v : Value N} (h : a.fetch node = .ok v) : a.kind.admits v.kind = true := by
  unfold Adjective.fetch at h
  split at h
  · cases h
  · split at h
    · cases h
    · split at h
      · rename_i admitted
        cases h
        rwa [Value.kind_without]
      · cases h

end Fetched

namespace Evaluation

variable {α : Type} {value : Evaluation N} {name : String} {node : N} {e : EvaluationError}

/-- Where every value that is given can be read, only the errors of the values are left. -/
theorem view_eq_error {read : Value N → Option α} {wanted : ValueKind}
    (reads : ∀ v, value name node = .ok v → ∃ x, read v = some x) :
    value.view read wanted name node = .error e ↔ value name node = .error e := by
  unfold view
  rw [bind_eq_error]
  refine or_iff_left ?_
  rintro ⟨v, hv, fails⟩
  obtain ⟨x, hx⟩ := reads v hv
  rw [hx] at fails
  cases fails

end Evaluation

omit [Node N] in
/-- A rank is left open by the first comparison that has no value, if all before it agree. -/
theorem RankKind.verdict_eq_error {kind : RankKind} {compare : N → Except EvaluationError Bool} {members : List N}
    {e : EvaluationError} : kind.verdict compare members = .error e ↔
      ∃ before m after, members = before ++ m :: after ∧
        (∀ m' ∈ before, ∃ holds, compare m' = .ok holds ∧ kind.agrees holds = true) ∧ compare m = .error e := by
  induction members with
  | nil => exact ⟨nofun, fun ⟨before, m, after, split, _⟩ => by cases before <;> cases split⟩
  | cons first rest ih =>
    rw [verdict, bind_eq_error]
    constructor
    · rintro (fails | ⟨holds, compared, open'⟩)
      · exact ⟨[], first, rest, rfl, List.forall_mem_nil _, fails⟩
      · split at open'
        · rename_i agrees
          obtain ⟨before, m, after, rfl, agree, fails⟩ := ih.mp open'
          exact ⟨first :: before, m, after, rfl, List.forall_mem_cons.mpr ⟨⟨holds, compared, agrees⟩, agree⟩, fails⟩
        · cases open'
    · rintro ⟨before, m, after, split, agree, fails⟩
      cases before with
      | nil =>
        cases split
        exact .inl fails
      | cons x before =>
        cases split
        obtain ⟨⟨holds, compared, agrees⟩, agree⟩ := List.forall_mem_cons.mp agree
        refine .inr ⟨holds, compared, ?_⟩
        rw [if_pos agrees]
        exact ih.mpr ⟨before, m, after, rfl, agree, fails⟩

namespace Framework

variable {F : Framework N} {name : String} {node : N} {e : EvaluationError}

theorem evaluate_fetch {a : Adjective N} (ha : F.adjective? name = some a) (hk : a.kind.isFetched = true) (node : N) :
    F.evaluate name node = a.fetch node :=
  evaluateWithin_fetch ha hk _ node

theorem evaluate_own {a : Adjective N} (ha : F.adjective? name = some a) (hk : a.kind.isFetched = true)
    (h : F.evaluate name node = .error e) : e.Own name (Node.label node) := by
  rw [evaluate_fetch ha hk] at h
  exact adjective?_name ha ▸ Adjective.fetch_own h

theorem evaluate_view_eq_error {α : Type} {a : Adjective N} (ha : F.adjective? name = some a) (hk : a.kind.isFetched = true)
    {read : Value N → Option α} {wanted : ValueKind} (reads : ∀ v, a.kind.admits v.kind = true → ∃ x, read v = some x) :
    F.evaluate.view read wanted name node = .error e ↔ F.evaluate name node = .error e := by
  refine Evaluation.view_eq_error fun v hv => reads v ?_
  rw [evaluate_fetch ha hk] at hv
  exact Adjective.fetch_admits hv

theorem evaluateNumber_eq_error {q : Adjective N} (hq : F.adjective? name = some q) (hk : q.kind = .quantitative) :
    F.evaluateNumber name node = .error e ↔ F.evaluate name node = .error e := by
  refine evaluate_view_eq_error hq (by rw [hk]; rfl) fun v admitted => ?_
  rw [hk] at admitted
  cases v <;> first | exact ⟨_, rfl⟩ | cases admitted

theorem evaluateGroup_eq_error {g : Adjective N} {excludingSelf : Bool} (hg : F.adjective? name = some g)
    (hk : g.kind = .nodesGroup excludingSelf) :
    F.evaluateGroup name node = .error e ↔ F.evaluate name node = .error e := by
  refine evaluate_view_eq_error hg (by rw [hk]; rfl) fun v admitted => ?_
  rw [hk] at admitted
  cases v <;> first | exact ⟨_, rfl⟩ | cases admitted

section Valid
variable (valid : F.validate = .ok ())

include valid

/-- A comparison fails as its base does on the first of the nodes where it has no value. -/
theorem compare_eq_error {base : String} {operator : Operator} {c : Adjective N} (hc : F.adjective? name = some c)
    (hk : c.kind = .comparison base operator) {a b : N} : F.compare name a b = .error e ↔
      (∃ cause, F.evaluate base a = .error cause ∧ e = .dependent name (Node.label a) base cause) ∨
      ∃ x cause, F.evaluate base a = .ok (.number x) ∧ F.evaluate base b = .error cause ∧
        e = .dependent name (Node.label b) base cause := by
  obtain ⟨q, hq, hquantity⟩ := validate_comparison valid hc hk
  have base_eq_error {node : N} {cause : EvaluationError} :
      F.evaluate.number base node = .error cause ↔ F.evaluate base node = .error cause :=
    evaluateNumber_eq_error hq hquantity
  rw [compare, compareBy_eq hc hk, bind_eq_error, mapError_eq_error]
  simp only [base_eq_error]
  refine or_congr_right (exists_congr fun x => ?_)
  rw [mapError_eq_ok, Evaluation.number_eq_ok, bind_eq_error, mapError_eq_error]
  simp [base_eq_error, pure, Except.pure]

/-- The value of a rank goes by the members of its group and the comparisons with them. -/
theorem evaluate_rank_eq {comparison group : String} {kind : RankKind} {a : Adjective N}
    (ha : F.adjective? name = some a) (hk : a.kind = .rank kind comparison group) : F.evaluate name node = do
      let members ← (F.evaluateGroup group node).mapError (.dependent name (Node.label node) group)
      return .bool (← kind.verdict (fun member => (F.compare comparison node member).mapError
        (.dependent name (Node.label node) comparison)) members) := by
  have enough : F.evaluateWithin 2 = F.evaluate := funext fun name => funext fun node => evaluate_room valid 0 name node
  rw [← evaluate_room valid 1, evaluateWithin_rank_eq ha hk, enough]
  rfl

/-- A rank fails as its group does, or as the comparison with the first member that leaves it open. -/
theorem rank_eq_error {comparison group : String} {kind : RankKind} {a : Adjective N}
    (ha : F.adjective? name = some a) (hk : a.kind = .rank kind comparison group) : F.evaluate name node = .error e ↔
      (∃ cause, F.evaluate group node = .error cause ∧ e = .dependent name (Node.label node) group cause) ∨
      ∃ before m after cause, F.evaluateGroup group node = .ok (before ++ m :: after) ∧
        (∀ m' ∈ before, ∃ holds, F.compare comparison node m' = .ok holds ∧ kind.agrees holds = true) ∧
        F.compare comparison node m = .error cause ∧ e = .dependent name (Node.label node) comparison cause := by
  obtain ⟨-, g, excludingSelf, hg, hgroup⟩ := validate_rank valid ha hk
  rw [evaluate_rank_eq valid ha hk, bind_eq_error, mapError_eq_error]
  simp only [evaluateGroup_eq_error hg hgroup, bind_eq_error, mapError_eq_ok, RankKind.verdict_eq_error,
    mapError_eq_error, pure, Except.pure, reduceCtorEq, and_false, exists_const, or_false]
  refine or_congr_right ⟨?_, ?_⟩
  · rintro ⟨members, hmembers, before, m, after, rfl, agree, cause, fails, rfl⟩
    exact ⟨before, m, after, cause, hmembers, agree, fails, rfl⟩
  · rintro ⟨before, m, after, cause, hmembers, agree, fails, rfl⟩
    exact ⟨_, hmembers, before, m, after, rfl, agree, cause, fails, rfl⟩

end Valid

/-! ### Causes -/

/-- An adjective passes an error on that it has from one it needs, and tells which one, and on which of the nodes. -/
structure Passes (F : Framework N) (near : N → Prop) (adjective node dependency : String) (cause : EvaluationError) :
    Prop where
  named : cause.adjective = dependency
  needed : ∃ a b, F.adjective? adjective = some a ∧ F.adjective? dependency = some b ∧ F.Needs a b
  nearby : ∃ m, near m ∧ Node.label m = node

/-- The error at the end of the chain is that of a value of its own, on one of the nodes. -/
def Stems (F : Framework N) (near : N → Prop) (e : EvaluationError) : Prop :=
  ∃ m, near m ∧ e.root.Own e.rootAdjective (Node.label m) ∧ F.evaluate e.rootAdjective m = .error e.root

/-- An error of an adjective blames its true cause: it was passed on twice at most, each time for an error of the
adjective that is told, and if at all, then it stems from a value of its own. -/
structure Blames (F : Framework N) (name : String) (near : N → Prop) (e : EvaluationError) : Prop where
  about : e.adjective = name
  passed : ∀ adjective node dependency cause, .dependent adjective node dependency cause ∈ e.chain →
    F.Passes near adjective node dependency cause
  layers : e.layers ≤ 2
  stems : 0 < e.layers → F.Stems near e

/-- The nodes that the value of an adjective on a node goes by: the node, and for a rank the members of its group. -/
inductive Concerns (F : Framework N) (name : String) (node : N) : N → Prop
  | self : F.Concerns name node node
  | member {comparison group : String} {kind : RankKind} {a : Adjective N} {members : List N} {m : N}
      (ha : F.adjective? name = some a) (hk : a.kind = .rank kind comparison group)
      (grouped : F.evaluateGroup group node = .ok members) (hm : m ∈ members) : F.Concerns name node m

section Causes
variable {near near' : N → Prop}

theorem Stems.of_own {m : N} (hm : near m) (own : e.Own name (Node.label m)) (fails : F.evaluate name m = .error e) :
    F.Stems near e := by
  refine ⟨m, hm, ?_, ?_⟩
  · rwa [own.root_eq, own.rootAdjective_eq]
  · rwa [own.root_eq, own.rootAdjective_eq]

/-- An error that was not passed on. -/
theorem Blames.of_layers (about : e.adjective = name) (h : e.layers = 0) : F.Blames name near e where
  about := about
  passed adjective node dependency cause hmem := by
    cases e with
    | dependent => cases h
    | _ => cases List.mem_singleton.mp hmem
  layers := h ▸ Nat.zero_le 2
  stems pos := absurd h (Nat.ne_of_gt pos)

theorem Blames.of_own {label : String} (own : e.Own name label) : F.Blames name near e :=
  .of_layers own.adjective_eq own.layers_eq

theorem Blames.mono (le : ∀ m, near m → near' m) (h : F.Blames name near e) : F.Blames name near' e where
  about := h.about
  passed adjective node dependency cause hmem := by
    obtain ⟨named, needed, m, hm, hlabel⟩ := h.passed adjective node dependency cause hmem
    exact ⟨named, needed, m, le m hm, hlabel⟩
  layers := h.layers
  stems pos := by
    obtain ⟨m, hm, hroot⟩ := h.stems pos
    exact ⟨m, le m hm, hroot⟩

/-- An error is passed on, that was passed on once at most before. -/
theorem Blames.pass {dependency : String} {cause : EvaluationError} {a b : Adjective N} (h : F.Blames dependency near cause)
    (few : cause.layers ≤ 1) (stems : F.Stems near cause) (ha : F.adjective? name = some a)
    (hb : F.adjective? dependency = some b) (needs : F.Needs a b) (hnode : near node) :
    F.Blames name near (.dependent name (Node.label node) dependency cause) where
  about := rfl
  passed adjective label dependency' cause' hmem := by
    rcases List.mem_cons.mp hmem with heq | hmem
    · cases heq
      exact ⟨h.about, ⟨a, b, ha, hb, needs⟩, node, hnode, rfl⟩
    · exact h.passed adjective label dependency' cause' hmem
  layers := Nat.succ_le_succ few
  stems _ := stems

end Causes

section Valid
variable (valid : F.validate = .ok ())

include valid

/-- A comparison has its error from its base on one of the two nodes. -/
theorem blames_compare {base : String} {operator : Operator} {c : Adjective N} (hc : F.adjective? name = some c)
    (hk : c.kind = .comparison base operator) {a b : N} (h : F.compare name a b = .error e) :
    F.Blames name (fun m => m = a ∨ m = b) e ∧ e.layers = 1 := by
  obtain ⟨q, hq, hquantity⟩ := validate_comparison valid hc hk
  have needs : F.Needs c q := ⟨adjective?_mem hc, (base, .quantitative), by rw [hk]; exact List.mem_cons_self, hq⟩
  obtain ⟨m, hm, cause, fails, rfl⟩ : ∃ m, (m = a ∨ m = b) ∧ ∃ cause, F.evaluate base m = .error cause ∧
      e = .dependent name (Node.label m) base cause := by
    rcases (compare_eq_error valid hc hk).mp h with ⟨cause, fails, rfl⟩ | ⟨x, cause, -, fails, rfl⟩
    · exact ⟨a, .inl rfl, cause, fails, rfl⟩
    · exact ⟨b, .inr rfl, cause, fails, rfl⟩
  have own := evaluate_own hq (by rw [hquantity]; rfl) fails
  have few : cause.layers ≤ 1 := own.layers_eq ▸ Nat.zero_le 1
  exact ⟨(Blames.of_own own).pass few (.of_own hm own fails) hc hq needs hm, congrArg (· + 1) own.layers_eq⟩

/-- A rank has its error from its group, or from the comparison with a member. -/
theorem blames_rank {comparison group : String} {kind : RankKind} {a : Adjective N} (ha : F.adjective? name = some a)
    (hk : a.kind = .rank kind comparison group) (h : F.evaluate name node = .error e) :
    F.Blames name (F.Concerns name node) e := by
  obtain ⟨⟨c, hc, hcomparison⟩, g, excludingSelf, hg, hgroup⟩ := validate_rank valid ha hk
  have needs {b : Adjective N} {reference : String × Role} (hr : reference ∈ [(comparison, Role.comparison),
      (group, Role.nodesGroup)]) (hb : F.adjective? reference.1 = some b) : F.Needs a b :=
    ⟨adjective?_mem ha, reference, by rw [hk]; exact hr, hb⟩
  rcases (rank_eq_error valid ha hk).mp h with ⟨cause, fails, rfl⟩ | ⟨before, m, after, cause, grouped, -, fails, rfl⟩
  · have own := evaluate_own hg (by rw [hgroup]; rfl) fails
    have few : cause.layers ≤ 1 := own.layers_eq ▸ Nat.zero_le 1
    exact (Blames.of_own own).pass few (.of_own .self own fails) ha hg (needs (.tail _ (.head _)) hg) .self
  · obtain ⟨base, operator, hkind⟩ := Adjective.isComparison_iff.mp hcomparison
    obtain ⟨blames, once⟩ := blames_compare valid hc hkind fails
    have concerned : ∀ m', m' = node ∨ m' = m → F.Concerns name node m' := by
      rintro m' (rfl | rfl)
      · exact .self
      · exact .member ha hk grouped (List.mem_append_right _ List.mem_cons_self)
    have blames := blames.mono concerned
    exact blames.pass (Nat.le_of_eq once) (blames.stems (by omega)) ha hc (needs (.head _) hc) .self

theorem blames_evaluate (h : F.evaluate name node = .error e) : F.Blames name (F.Concerns name node) e := by
  cases ha : F.adjective? name with
  | none =>
    rw [evaluate, evaluateWithin_unknown ha] at h
    cases h
    exact .of_layers rfl rfl
  | some a =>
    cases hk : a.kind with
    | comparison base operator =>
      rw [evaluate, evaluateWithin_comparison ha (Adjective.isComparison_iff.mpr ⟨base, operator, hk⟩)] at h
      cases h
      exact .of_layers rfl rfl
    | rank kind comparison group => exact blames_rank valid ha hk h
    | _ => exact .of_own (evaluate_own ha (by rw [hk]; rfl) h)

/-- In a valid framework every error of a value or a comparison blames its true cause. -/
theorem errors_blame :
    (∀ name node e, F.evaluate name node = .error e → F.Blames name (F.Concerns name node) e) ∧
    ∀ name a b e, F.compare name a b = .error e → F.Blames name (fun m => m = a ∨ m = b) e := by
  refine ⟨fun name node e h => blames_evaluate valid h, fun name a b e h => ?_⟩
  cases hc : F.adjective? name with
  | none =>
    rw [compare, compareBy_unknown hc] at h
    cases h
    exact .of_layers rfl rfl
  | some c =>
    cases hk : c.kind with
    | comparison base operator => exact (blames_compare valid hc hk h).1
    | _ =>
      rw [compare, compareBy_other hc (by rw [Adjective.isComparison, hk]; rfl)] at h
      cases h
      exact .of_layers rfl rfl

end Valid

end Framework

/-- The suits, of which spades have no worth. -/
def Suit.unpriced : Framework Suit where
  nodeWord := "suit"
  adjectives := [
    { name := "worth", kind := .quantitative
      getter := some fun s => if s = spades then .error ⟨"spades have no worth"⟩ else .ok (.number s.worth) },
    { name := "better", kind := .comparison "worth" .greater },
    { name := "rest", kind := .nodesGroup true
      getter := some fun _ => .ok (.nodes [clubs, diamonds, hearts, spades]) },
    { name := "best", kind := .rank .max "better" "rest" }]

/-- That clubs are the best is left open by the third of the others. -/
theorem Suit.unpriced_blames : ∃ e, unpriced.validate = .ok () ∧ unpriced.evaluate "best" clubs = .error e ∧
    e.layers = 2 ∧ e.root = .getter "worth" "spades" ⟨"spades have no worth"⟩ ∧
    unpriced.Blames "best" (unpriced.Concerns "best" clubs) e := by
  obtain ⟨e, fails, layers, root⟩ : ∃ e, unpriced.evaluate "best" clubs = .error e ∧ e.layers = 2 ∧
      e.root = .getter "worth" "spades" ⟨"spades have no worth"⟩ := ⟨_, rfl, rfl, rfl⟩
  exact ⟨e, rfl, fails, layers, root, (Framework.errors_blame rfl).1 _ _ _ fails⟩

end Rationale
