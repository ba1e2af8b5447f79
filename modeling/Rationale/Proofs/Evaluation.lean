import Rationale.Proofs.Filling
import Rationale.Proofs.Results

/-!
Where values come from. In a valid framework an evaluation comes to an end: a rank needs a comparison and a
group, a comparison needs a quantity, and quantities and groups are fetched. Nodes only come from getters, so
what can be reached from a node through its values is what the getters deliver.
-/

namespace Rationale

namespace Framework

variable {N : Type} {F : Framework N}

theorem validate_adjectives (valid : F.validate = .ok ()) : ∀ a ∈ F.adjectives, F.checkAdjective a = .ok () := by
  unfold validate at valid
  cases hm : F.main with
  | none =>
    simp only [hm, bind_eq_ok] at valid
    obtain ⟨-, -, checked⟩ := valid
    exact forM_eq_ok.mp checked
  | some name =>
    simp only [hm, bind_eq_ok] at valid
    obtain ⟨-, -, -, -, checked⟩ := valid
    exact forM_eq_ok.mp checked

/-- What an adjective of a valid framework refers to is there, and can be used as it is. -/
theorem validate_references (valid : F.validate = .ok ()) {a : Adjective N} (ha : a ∈ F.adjectives)
    {reference : String × Role} (hr : reference ∈ a.references) :
    ∃ target, F.adjective? reference.1 = some target ∧ reference.2.admits target.kind = true := by
  have checked := validate_adjectives valid a ha
  unfold checkAdjective at checked
  cases hrefs : a.references.forM (F.checkReference a.name) with
  | error e => simp [hrefs, bind, Except.bind] at checked
  | ok u =>
    have found := forM_eq_ok.mp hrefs reference hr
    unfold checkReference at found
    cases ht : F.adjective? reference.1 with
    | none => simp [ht] at found
    | some target =>
      cases hk : reference.2.admits target.kind with
      | true => exact ⟨target, rfl, hk⟩
      | false => simp [ht, hk] at found

end Framework

theorem Adjective.isComparison_iff {N : Type} {a : Adjective N} :
    a.isComparison = true ↔ ∃ base operator, a.kind = .comparison base operator := by
  unfold Adjective.isComparison
  rw [beq_iff_eq]
  cases a.kind <;> simp [AdjectiveKind.origin]

section Roles
variable {k : AdjectiveKind}

theorem Role.admits_pointer (h : Role.pointer.admits k = true) : k = .pointer := by
  cases k <;> first | rfl | cases h

theorem Role.admits_quantitative (h : Role.quantitative.admits k = true) : k = .quantitative := by
  cases k <;> first | rfl | cases h

theorem Role.admits_nodesGroup (h : Role.nodesGroup.admits k = true) :
    ∃ excludingSelf, k = .nodesGroup excludingSelf := by
  cases k <;> first | exact ⟨_, rfl⟩ | cases h

theorem Role.admits_comparison (h : Role.comparison.admits k = true) : k.origin = .comparison := by
  cases k <;> first | rfl | cases h

end Roles

/-- Whether values of the kind are fetched from getters. -/
def AdjectiveKind.isFetched : AdjectiveKind → Bool
  | .comparison _ _ => false
  | .rank _ _ _ => false
  | _ => true

namespace Framework

section References
variable {N : Type} {F : Framework N} (valid : F.validate = .ok ())

include valid

/-- Comparisons compare quantities. -/
theorem validate_comparison {name base : String} {operator : Operator} {c : Adjective N}
    (hc : F.adjective? name = some c) (hk : c.kind = .comparison base operator) :
    ∃ q, F.adjective? base = some q ∧ q.kind = .quantitative := by
  have href : (base, Role.quantitative) ∈ c.references := by
    unfold Adjective.references
    rw [hk]
    exact List.mem_append_left _ (List.mem_singleton_self _)
  obtain ⟨q, hq, hadmits⟩ := validate_references valid (adjective?_mem hc) href
  exact ⟨q, hq, Role.admits_quantitative hadmits⟩

/-- Ranks go by a comparison, within a group. -/
theorem validate_rank {name comparison group : String} {kind : RankKind} {a : Adjective N}
    (ha : F.adjective? name = some a) (hk : a.kind = .rank kind comparison group) :
    (∃ c, F.adjective? comparison = some c ∧ c.isComparison = true) ∧
      ∃ g excludingSelf, F.adjective? group = some g ∧ g.kind = .nodesGroup excludingSelf := by
  have href : ∀ r ∈ [(comparison, Role.comparison), (group, Role.nodesGroup)], r ∈ a.references := by
    intro r hr
    unfold Adjective.references
    rw [hk]
    exact List.mem_append_left _ hr
  obtain ⟨c, hc, hadmits⟩ := validate_references valid (adjective?_mem ha) (href _ List.mem_cons_self)
  obtain ⟨g, hg, hadmits'⟩ :=
    validate_references valid (adjective?_mem ha) (href _ (List.mem_cons_of_mem _ List.mem_cons_self))
  obtain ⟨excludingSelf, hgroup⟩ := Role.admits_nodesGroup hadmits'
  exact ⟨⟨c, hc, beq_iff_eq.mpr (Role.admits_comparison hadmits)⟩, g, excludingSelf, hg, hgroup⟩

end References

variable {N : Type} [Node N] {F : Framework N}

/-- A defined adjective is evaluated with room for another one below it. -/
theorem evaluate_eq_within {name : String} {a : Adjective N} (ha : F.adjective? name = some a) :
    ∃ depth, F.evaluate = F.evaluateWithin (depth + 2) := by
  have := List.length_pos_of_mem (adjective?_mem ha)
  exact ⟨F.adjectives.length - 1, by rw [evaluate, show F.adjectives.length - 1 + 2 = F.adjectives.length + 1 by omega]⟩

theorem evaluateWithin_unknown {name : String} (ha : F.adjective? name = none) (depth : Nat) (node : N) :
    F.evaluateWithin (depth + 1) name node = .error (.unknownReference name) := by
  rw [evaluateWithin, ha]

theorem evaluateWithin_fetch {name : String} {a : Adjective N} (ha : F.adjective? name = some a)
    (hk : a.kind.isFetched = true) (depth : Nat) (node : N) :
    F.evaluateWithin (depth + 1) name node = a.fetch node := by
  rw [evaluateWithin, ha]
  dsimp only
  split
  · rename_i h
    rw [h] at hk
    cases hk
  · rename_i h
    rw [h] at hk
    cases hk
  · rfl

theorem evaluateWithin_comparison {name : String} {c : Adjective N} (hc : F.adjective? name = some c)
    (hk : c.isComparison = true) (depth : Nat) (node : N) :
    F.evaluateWithin (depth + 1) name node = .error (.requiresTwoNodes name) := by
  obtain ⟨base, operator, hkind⟩ := Adjective.isComparison_iff.mp hk
  rw [evaluateWithin, hc]
  dsimp only
  rw [hkind]

/-- The value of a rank goes by the members of its group and the comparisons with them. -/
theorem evaluateWithin_rank_eq {name comparison group : String} {kind : RankKind} {a : Adjective N}
    (ha : F.adjective? name = some a) (hk : a.kind = .rank kind comparison group) (depth : Nat) (node : N) :
    F.evaluateWithin (depth + 1) name node = do
      let members ← ((F.evaluateWithin depth).group group node).mapError (.dependent name (Node.label node) group)
      return .bool (← kind.verdict (fun member => (F.compareBy (F.evaluateWithin depth) comparison node member).mapError
        (.dependent name (Node.label node) comparison)) members) := by
  rw [evaluateWithin, ha]
  dsimp only
  rw [hk]

theorem compareBy_unknown {name : String} (hc : F.adjective? name = none) (value : Evaluation N) (a b : N) :
    F.compareBy value name a b = .error (.unknownReference name) := by
  rw [compareBy, hc]

theorem compareBy_other {name : String} {c : Adjective N} (hc : F.adjective? name = some c)
    (hk : c.isComparison = false) (value : Evaluation N) (a b : N) :
    F.compareBy value name a b = .error (.notAComparison name) := by
  rw [compareBy, hc]
  dsimp only
  split
  · rename_i h
    rw [Adjective.isComparison, h] at hk
    cases hk
  · rfl

/-- A comparison goes by the numbers that its base has on the two nodes. -/
theorem compareBy_eq {name base : String} {operator : Operator} {c : Adjective N} (hc : F.adjective? name = some c)
    (hk : c.kind = .comparison base operator) (value : Evaluation N) (a b : N) : F.compareBy value name a b = do
      let x ← (value.number base a).mapError (.dependent name (Node.label a) base)
      let y ← (value.number base b).mapError (.dependent name (Node.label b) base)
      return operator.holds x y := by
  rw [compareBy, hc]
  dsimp only
  rw [hk]

end Framework

/-! ### Errors of evaluations -/

/-- Every error of the result is one of these. -/
def Errs {α : Type} (C : EvaluationError → Prop) (r : Except EvaluationError α) : Prop := ∀ e, r = .error e → C e

/-- The errors that fetched values have are among these, and with an error those that report it along a chain. -/
structure EvaluationError.Closed (C : EvaluationError → Prop) : Prop where
  missingGetter : ∀ adjective, C (.missingGetter adjective)
  getter : ∀ adjective node cause, C (.getter adjective node cause)
  unexpectedValue : ∀ adjective node expected found, C (.unexpectedValue adjective node expected found)
  dependent : ∀ adjective node dependency cause, C cause → C (.dependent adjective node dependency cause)

variable {C : EvaluationError → Prop}

namespace Errs

variable {α β : Type}

theorem ok (x : α) : Errs C (.ok x) := fun _ h => by cases h

theorem error {e : EvaluationError} (h : C e) : Errs C (.error e : Except EvaluationError α) := fun _ he => by
  cases he
  exact h

theorem bind {r : Except EvaluationError α} {f : α → Except EvaluationError β} (h : Errs C r)
    (hf : ∀ x, r = .ok x → Errs C (f x)) : Errs C (r >>= f) := by
  cases r with
  | error e => exact .error (h e rfl)
  | ok x => exact hf x rfl

theorem dependent (closed : EvaluationError.Closed C) {r : Except EvaluationError α} (h : Errs C r)
    (name node dependency : String) : Errs C (r.mapError (.dependent name node dependency)) := by
  cases r with
  | error e => exact .error (closed.dependent _ _ _ _ (h e rfl))
  | ok x => exact .ok x

end Errs

section Errors
variable {N : Type} {k : RankKind} {compare : N → Except EvaluationError Bool} {members : List N}

theorem RankKind.verdict_errs (h : ∀ m ∈ members, Errs C (compare m)) : Errs C (k.verdict compare members) := by
  induction members with
  | nil => exact .ok _
  | cons m rest ih =>
    rw [RankKind.verdict]
    refine (h m List.mem_cons_self).bind fun holds _ => ?_
    split
    · exact ih fun m hm => h m (List.mem_cons_of_mem _ hm)
    · exact .ok _

theorem RankKind.verdict_ok (k : RankKind) (h : ∀ m ∈ members, ∃ holds, compare m = .ok holds) :
    ∃ holds, k.verdict compare members = .ok holds := by
  induction members with
  | nil => exact ⟨true, rfl⟩
  | cons m rest ih =>
    obtain ⟨holds, hm⟩ := h m List.mem_cons_self
    rw [RankKind.verdict, hm]
    simp only [bind, Except.bind]
    split
    · exact ih fun m hm => h m (List.mem_cons_of_mem _ hm)
    · exact ⟨false, rfl⟩

variable [Node N] (closed : EvaluationError.Closed C)

include closed

theorem Adjective.fetch_errs (a : Adjective N) (node : N) : Errs C (a.fetch node) := by
  unfold Adjective.fetch
  split
  · exact .error (closed.missingGetter _)
  · split
    · exact .error (closed.getter _ _ _)
    · split
      · exact .ok _
      · exact .error (closed.unexpectedValue _ _ _ _)

theorem Evaluation.view_errs {α : Type} {value : Evaluation N} {name : String} {node : N} (h : Errs C (value name node))
    (read : Value N → Option α) (wanted : ValueKind) : Errs C (value.view read wanted name node) := by
  refine h.bind fun v _ => ?_
  split
  · exact .ok _
  · exact .error (closed.unexpectedValue _ _ _ _)

namespace Framework

variable {F : Framework N} (valid : F.validate = .ok ())

include valid

/-- In a valid framework the errors of comparisons are those of fetched values. -/
theorem compareBy_errs {name : String} {c : Adjective N} (hc : F.adjective? name = some c)
    (hk : c.isComparison = true) (depth : Nat) (a b : N) :
    Errs C (F.compareBy (F.evaluateWithin (depth + 1)) name a b) := by
  obtain ⟨base, operator, hkind⟩ := Adjective.isComparison_iff.mp hk
  obtain ⟨q, hq, hquantity⟩ := validate_comparison valid hc hkind
  have fetched (n : N) : Errs C (F.evaluateWithin (depth + 1) base n) := by
    rw [evaluateWithin_fetch hq (by rw [hquantity]; rfl)]
    exact q.fetch_errs closed n
  rw [compareBy_eq hc hkind]
  refine ((Evaluation.view_errs closed (fetched a) _ _).dependent closed _ _ _).bind fun x _ => ?_
  exact ((Evaluation.view_errs closed (fetched b) _ _).dependent closed _ _ _).bind fun y _ => .ok _

/-- In a valid framework the errors of other adjectives are those of fetched values. -/
theorem evaluateWithin_errs {name : String} {a : Adjective N} (ha : F.adjective? name = some a)
    (hk : a.isComparison = false) (depth : Nat) (node : N) : Errs C (F.evaluateWithin (depth + 2) name node) := by
  cases hkind : a.kind with
  | comparison base operator =>
    rw [Adjective.isComparison, hkind] at hk
    cases hk
  | rank kind comparison group =>
    obtain ⟨⟨c, hc, hcomparison⟩, g, excludingSelf, hg, hgroup⟩ := validate_rank valid ha hkind
    have fetched : Errs C (F.evaluateWithin (depth + 1) group node) := by
      rw [evaluateWithin_fetch hg (by rw [hgroup]; rfl)]
      exact g.fetch_errs closed node
    rw [evaluateWithin_rank_eq ha hkind]
    refine ((Evaluation.view_errs closed fetched _ _).dependent closed _ _ _).bind fun ms _ => ?_
    refine (RankKind.verdict_errs fun m _ => ?_).bind fun b _ => .ok _
    exact (compareBy_errs closed valid hc hcomparison depth node m).dependent closed _ _ _
  | _ =>
    rw [evaluateWithin_fetch ha (by rw [hkind]; rfl)]
    exact a.fetch_errs closed node

theorem evaluate_errs {name : String} {a : Adjective N} (ha : F.adjective? name = some a)
    (hk : a.isComparison = false) (node : N) : Errs C (F.evaluate name node) := by
  obtain ⟨depth, hdepth⟩ := evaluate_eq_within ha
  rw [hdepth]
  exact evaluateWithin_errs closed valid ha hk depth node

theorem compare_errs {name : String} {c : Adjective N} (hc : F.adjective? name = some c)
    (hk : c.isComparison = true) (a b : N) : Errs C (F.compare name a b) := by
  obtain ⟨depth, hdepth⟩ := evaluate_eq_within hc
  rw [compare, hdepth]
  exact compareBy_errs closed valid hc hk (depth + 1) a b

end Framework

end Errors

/-- Whether an evaluation was given up because it had gone deeper than chains of different adjectives go. -/
def EvaluationError.isEndless : EvaluationError → Bool
  | .endless _ => true
  | .dependent _ _ _ cause => cause.isEndless
  | _ => false

/-- The result is not an evaluation given up. -/
def Settled {α : Type} (r : Except EvaluationError α) : Prop := ∀ e, r = .error e → e.isEndless = false

theorem EvaluationError.closed_settled : EvaluationError.Closed fun e => e.isEndless = false where
  missingGetter _ := rfl
  getter _ _ _ := rfl
  unexpectedValue _ _ _ _ := rfl
  dependent _ _ _ _ h := h

variable {N : Type} [Node N]

namespace Framework

variable {F : Framework N} (valid : F.validate = .ok ())

include valid

/-- In a valid framework every evaluation is brought to its end. -/
theorem evaluate_settled (name : String) (node : N) : Settled (F.evaluate name node) := by
  cases ha : F.adjective? name with
  | none =>
    unfold evaluate
    rw [evaluateWithin_unknown ha]
    exact Errs.error rfl
  | some a =>
    cases hk : a.isComparison with
    | true =>
      unfold evaluate
      rw [evaluateWithin_comparison ha hk]
      exact Errs.error rfl
    | false => exact evaluate_errs EvaluationError.closed_settled valid ha hk node

theorem compare_settled (name : String) (a b : N) : Settled (F.compare name a b) := by
  cases hc : F.adjective? name with
  | none =>
    rw [compare, compareBy_unknown hc]
    exact Errs.error rfl
  | some c =>
    cases hk : c.isComparison with
    | true => exact compare_errs EvaluationError.closed_settled valid hc hk a b
    | false =>
      rw [compare, compareBy_other hc hk]
      exact Errs.error rfl

end Framework

/-! ### Values by kind -/

omit [Node N] in
theorem Value.asNumber?_eq_some {v : Value N} {x : Number} : v.asNumber? = some x ↔ v = .number x := by
  cases v <;> simp [asNumber?]

omit [Node N] in
theorem Value.asNodes?_eq_some {v : Value N} {members : List N} : v.asNodes? = some members ↔ v = .nodes members := by
  cases v <;> simp [asNodes?]

namespace Evaluation

variable {α : Type} {value value' : Evaluation N} {name : String} {node : N}

theorem view_congr (h : value' name node = value name node) (read : Value N → Option α) (wanted : ValueKind) :
    value'.view read wanted name node = value.view read wanted name node := by
  unfold view
  rw [h]

theorem view_eq_ok {read : Value N → Option α} {wanted : ValueKind} {x : α} :
    value.view read wanted name node = .ok x ↔ ∃ v, value name node = .ok v ∧ read v = some x := by
  unfold view
  rw [bind_eq_ok]
  refine exists_congr fun v => and_congr_right fun _ => ?_
  cases read v <;> simp [pure, Except.pure, throw, throwThe, MonadExceptOf.throw]

theorem group_eq_ok {members : List N} :
    value.group name node = .ok members ↔ value name node = .ok (.nodes members) := by
  simp only [group, view_eq_ok, Value.asNodes?_eq_some, exists_eq_right]

theorem number_eq_ok {x : Number} : value.number name node = .ok x ↔ value name node = .ok (.number x) := by
  simp only [number, view_eq_ok, Value.asNumber?_eq_some, exists_eq_right]

end Evaluation

namespace Framework

variable {F : Framework N}

/-- A comparison holds or not where its base has a number on both nodes. -/
theorem compareBy_ok {value : Evaluation N} {name base : String} {operator : Operator} {c : Adjective N}
    (hc : F.adjective? name = some c) (hk : c.kind = .comparison base operator) {a b : N} {x y : Number}
    (hx : value base a = .ok (.number x)) (hy : value base b = .ok (.number y)) :
    F.compareBy value name a b = .ok (operator.holds x y) := by
  rw [compareBy_eq hc hk]
  rw [Evaluation.number_eq_ok.mpr hx, Evaluation.number_eq_ok.mpr hy]
  rfl

/-- A rank holds or not where its group has members and its comparison holds or not for each of them. -/
theorem evaluate_rank {name comparison group : String} {kind : RankKind} {a : Adjective N}
    (ha : F.adjective? name = some a) (hk : a.kind = .rank kind comparison group) {node : N} {members : List N}
    (hgroup : ∀ depth, F.evaluateWithin (depth + 1) group node = .ok (.nodes members))
    (hcompare : ∀ depth, ∀ m ∈ members,
      ∃ holds, F.compareBy (F.evaluateWithin (depth + 1)) comparison node m = .ok holds) :
    ∃ holds, F.evaluate name node = .ok (.bool holds) := by
  obtain ⟨n, hn⟩ := evaluate_eq_within ha
  have compared : ∀ m ∈ members, ∃ holds, (F.compareBy (F.evaluateWithin (n + 1)) comparison node m).mapError
      (EvaluationError.dependent name (Node.label node) comparison) = .ok holds := by
    intro m hm
    obtain ⟨holds, h⟩ := hcompare n m hm
    exact ⟨holds, by rw [h]; rfl⟩
  obtain ⟨holds, hverdict⟩ := kind.verdict_ok compared
  refine ⟨holds, ?_⟩
  rw [hn, evaluateWithin_rank_eq ha hk]
  rw [Evaluation.group_eq_ok.mpr (hgroup n)]
  refine bind_eq_ok.mpr ⟨members, rfl, bind_eq_ok.mpr ⟨holds, hverdict, rfl⟩⟩

end Framework

/-! ### Nodes in values -/

/-- The nodes a value leads to. -/
def Value.targets {N : Type} : Value N → List N
  | .node n => [n]
  | .nodes ns => ns
  | _ => []

theorem Value.targets_without (node : N) (k : AdjectiveKind) (v : Value N) :
    (v.without node k).targets ⊆ v.targets := by
  unfold Value.without
  split
  · split
    · exact List.filter_sublist.subset
    · exact List.Subset.refl _
  · exact List.Subset.refl _

theorem Adjective.fetch_ok {a : Adjective N} {node : N} {v : Value N} (h : a.fetch node = .ok v) :
    ∃ getter value, a.getter = some getter ∧ getter node = .ok value ∧ v = value.without node a.kind := by
  unfold Adjective.fetch at h
  split at h
  · cases h
  · rename_i getter hg
    split at h
    · cases h
    · rename_i value hv
      split at h
      · cases h
        exact ⟨getter, value, hg, hv, rfl⟩
      · cases h

/-- A property of nodes that getters keep: what they deliver for a node that has it has it too. -/
def Framework.Keeps (F : Framework N) (P : N → Prop) : Prop :=
  ∀ n, P n → ∀ a ∈ F.adjectives, ∀ getter value, a.getter = some getter → getter n = .ok value →
    ∀ m ∈ value.targets, P m

namespace Framework

variable {F : Framework N} {P : N → Prop}

theorem evaluateWithin_targets (keeps : F.Keeps P) {depth : Nat} {name : String} {node : N} (hn : P node)
    {v : Value N} (h : F.evaluateWithin depth name node = .ok v) : ∀ m ∈ v.targets, P m := by
  cases depth with
  | zero => cases h
  | succ depth =>
    rw [evaluateWithin] at h
    split at h
    · cases h
    · rename_i a ha
      split at h
      · cases h
      · -- A rank has a truth value.
        simp only [bind, Except.bind, pure, Except.pure] at h
        split at h
        · cases h
        · split at h
          · cases h
          · cases h
            exact fun _ hm => by cases hm
      · obtain ⟨getter, value, hg, hv, rfl⟩ := Adjective.fetch_ok h
        intro m hm
        exact keeps node hn a (adjective?_mem ha) getter value hg hv m (Value.targets_without _ _ _ hm)

theorem follow_targets (keeps : F.Keeps P) {node target : N} {pointer : String} (hn : P node)
    (h : F.follow node pointer = .ok target) : P target :=
  evaluateWithin_targets keeps hn (follow_ok h) target (List.mem_singleton_self _)

theorem evaluateGroup_targets (keeps : F.Keeps P) {node : N} {group : String} {members : List N} (hn : P node)
    (h : F.evaluateGroup group node = .ok members) : ∀ m ∈ members, P m := by
  exact evaluateWithin_targets keeps hn (Evaluation.group_eq_ok.mp h)

end Framework

end Rationale
