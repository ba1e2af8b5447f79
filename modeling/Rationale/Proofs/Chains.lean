import Mathlib.Data.List.Perm.Subperm
import Rationale.Proofs.Ranks
import Rationale.Proofs.Room

/-!
How much room an evaluation needs. A rank is given up on a node only if its group or the base of its comparison is, so
one that was given up with some room, but comes to its end with more, stands at the head of a chain of as many different
adjectives. A framework that defines what an evaluation can come to therefore has enough room for it, whatever else it
defines.
-/

namespace Rationale

variable {N : Type} [Node N]

namespace Framework

variable {F : Framework N}

/-- A base that has a number on one node comes to its end on every node. -/
theorem settled_base {depth : Nat} {base : String} {node : N} {x : Number}
    (number : F.evaluateWithin depth base node = .ok (.number x)) (other : N) :
    Settled (F.evaluateWithin depth base other) := by
  cases depth with
  | zero => cases number
  | succ depth =>
    cases hb : F.adjective? base with
    | none =>
      rw [evaluateWithin_unknown hb] at number
      cases number
    | some b =>
      cases hk : b.kind with
      | comparison base operator =>
        rw [evaluateWithin_comparison hb (by rw [Adjective.isComparison, hk]; rfl)] at number
        cases number
      | rank kind comparison group =>
        obtain ⟨_, _, -, -, heq⟩ := (evaluateWithin_rank hb hk).mp number
        cases heq
      | _ =>
        rw [evaluateWithin_fetch hb (by rw [hk]; rfl)]
        exact b.fetch_errs EvaluationError.closed_settled other

/-- The base of a comparison with the members of a group, if there are any. -/
def Base (F : Framework N) (depth : Nat) (comparison group : String) (node : N) (base : String) : Prop :=
  ∃ members c operator, F.evaluateWithin depth group node = .ok (.nodes members) ∧ members ≠ [] ∧
    F.adjective? comparison = some c ∧ c.kind = .comparison base operator

section Rank
variable {name comparison group : String} {kind : RankKind} {a : Adjective N} (ha : F.adjective? name = some a)
  (hk : a.kind = .rank kind comparison group) {depth : Nat} {node : N}

include ha hk

theorem settled_rank (hgroup : Settled (F.evaluateWithin depth group node))
    (hbase : ∀ base, F.Base depth comparison group node base → Settled (F.evaluateWithin depth base node)) :
    Settled (F.evaluateWithin (depth + 1) name node) := by
  have closed := EvaluationError.closed_settled
  rw [evaluateWithin_rank_eq ha hk]
  refine ((Evaluation.view_errs closed hgroup _ _).dependent closed _ _ _).bind fun members hmembers => ?_
  refine (RankKind.verdict_errs fun m hm => ?_).bind fun _ _ => .ok _
  refine Errs.dependent closed ?_ _ _ _
  cases hc : F.adjective? comparison with
  | none =>
    rw [compareBy_unknown hc]
    exact .error rfl
  | some c =>
    cases hcomparison : c.kind with
    | comparison base operator =>
      rw [compareBy_eq hc hcomparison]
      have there := hbase base ⟨members, c, operator, Evaluation.group_eq_ok.mp (mapError_eq_ok.mp hmembers),
        List.ne_nil_of_mem hm, hc, hcomparison⟩
      refine ((Evaluation.view_errs closed there _ _).dependent closed _ _ _).bind fun x hx => ?_
      have everywhere := settled_base (Evaluation.number_eq_ok.mp (mapError_eq_ok.mp hx)) m
      exact ((Evaluation.view_errs closed everywhere _ _).dependent closed _ _ _).bind fun y _ => .ok _
    | _ =>
      rw [compareBy_other hc (by rw [Adjective.isComparison, hcomparison]; rfl)]
      exact .error rfl

theorem settled_of_rank (settled : Settled (F.evaluateWithin (depth + 1) name node)) :
    Settled (F.evaluateWithin depth group node) ∧
      ∀ base, F.Base depth comparison group node base → Settled (F.evaluateWithin depth base node) := by
  rw [evaluateWithin_rank_eq ha hk] at settled
  refine ⟨settled.of_bind.of_dependent.of_bind, ?_⟩
  rintro base ⟨members, c, operator, hmembers, nonempty, hc, hcomparison⟩
  obtain ⟨m, rest, rfl⟩ := List.exists_cons_of_ne_nil nonempty
  -- The first member is compared whatever comes of it.
  rw [mapError_eq_ok.mpr (Evaluation.group_eq_ok.mpr hmembers)] at settled
  change Settled (kind.verdict _ (m :: rest) >>= _) at settled
  rw [RankKind.verdict, compareBy_eq hc hcomparison] at settled
  exact settled.of_bind.of_bind.of_dependent.of_bind.of_dependent.of_bind

end Rank

/-! ### Chains -/

/-- The names are closed under what adjectives refer to. -/
def Closes (F : Framework N) (names : String → Prop) : Prop :=
  ∀ name a, names name → F.adjective? name = some a → ∀ reference ∈ a.references, names reference.1

section Chains
variable {names : String → Prop} (closes : F.Closes names) {node : N}

include closes

omit [Node N] in
theorem Closes.base {comparison base : String} {operator : Operator} {c : Adjective N} (hcomparison : names comparison)
    (hc : F.adjective? comparison = some c) (hk : c.kind = .comparison base operator) : names base := by
  refine closes comparison c hcomparison hc (base, .quantitative) (List.mem_append_left _ ?_)
  rw [hk]
  exact List.mem_singleton_self _

omit [Node N] in
theorem Closes.rank {name comparison group : String} {kind : RankKind} {a : Adjective N} (hname : names name)
    (ha : F.adjective? name = some a) (hk : a.kind = .rank kind comparison group) : names comparison ∧ names group := by
  have refers := closes name a hname ha
  rw [Adjective.references, hk] at refers
  exact ⟨refers _ (List.mem_append_left _ List.mem_cons_self),
    refers _ (List.mem_append_left _ (List.mem_cons_of_mem _ List.mem_cons_self))⟩

/-- What is given up with some room, and not with one level more, is a rank that needs an adjective of which the same is
true with one level less. -/
theorem Closes.step {name : String} (hname : names name) {depth : Nat}
    (givenUp : ¬Settled (F.evaluateWithin (depth + 1) name node))
    (settled : Settled (F.evaluateWithin (depth + 2) name node)) :
    (F.adjective? name).isSome = true ∧ ∃ name', names name' ∧ ¬Settled (F.evaluateWithin depth name' node) ∧
      Settled (F.evaluateWithin (depth + 1) name' node) := by
  cases ha : F.adjective? name with
  | none =>
    rw [evaluateWithin_unknown ha] at givenUp
    exact (givenUp (Errs.error rfl)).elim
  | some a =>
    refine ⟨rfl, ?_⟩
    cases hk : a.kind with
    | comparison base operator =>
      rw [evaluateWithin_comparison ha (by rw [Adjective.isComparison, hk]; rfl)] at givenUp
      exact (givenUp (Errs.error rfl)).elim
    | rank kind comparison group =>
      obtain ⟨hcomparison, hgroup⟩ := closes.rank hname ha hk
      obtain ⟨group_settled, base_settled⟩ := settled_of_rank ha hk settled
      by_cases hg : Settled (F.evaluateWithin depth group node)
      · obtain ⟨base, hbase, hb⟩ : ∃ base, F.Base depth comparison group node base ∧
            ¬Settled (F.evaluateWithin depth base node) := by
          by_contra none
          refine givenUp (settled_rank ha hk hg fun base hbase => ?_)
          by_contra hb
          exact none ⟨base, hbase, hb⟩
        obtain ⟨members, c, operator, hmembers, nonempty, hc, hkc⟩ := hbase
        refine ⟨base, closes.base hcomparison hc hkc, hb, base_settled base ?_⟩
        exact ⟨members, c, operator, (evaluateWithin_follows depth group node hg).trans hmembers, nonempty, hc, hkc⟩
      · exact ⟨group, hgroup, hg, group_settled⟩
    | _ =>
      rw [evaluateWithin_fetch ha (by rw [hk]; rfl)] at givenUp
      exact absurd (a.fetch_errs EvaluationError.closed_settled node) givenUp

/-- A chain of defined adjectives below what is given up with some room, and not with one level more. -/
theorem Closes.chain {depth : Nat} {name : String} (hname : names name)
    (givenUp : ¬Settled (F.evaluateWithin depth name node))
    (settled : Settled (F.evaluateWithin (depth + 1) name node)) :
    ∃ chain : List String, chain.Nodup ∧ chain.length = depth ∧ ∀ link ∈ chain, names link ∧
      (F.adjective? link).isSome = true ∧ Settled (F.evaluateWithin (depth + 1) link node) := by
  induction depth generalizing name with
  | zero => exact ⟨[], List.nodup_nil, rfl, fun _ h => by cases h⟩
  | succ depth ih =>
    obtain ⟨defined, name', hname', givenUp', settled'⟩ := closes.step hname givenUp settled
    obtain ⟨chain, distinct, hlength, links⟩ := ih hname' givenUp' settled'
    refine ⟨name :: chain, List.nodup_cons.mpr ⟨fun hmem => givenUp (links name hmem).2.2, distinct⟩, ?_, ?_⟩
    · rw [List.length_cons, hlength]
    · refine List.forall_mem_cons.mpr ⟨⟨hname, defined, settled⟩, fun link hlink => ?_⟩
      obtain ⟨hnames, hdefined, hsettled⟩ := links link hlink
      refine ⟨hnames, hdefined, ?_⟩
      rw [evaluateWithin_of_le (Nat.le_succ _) hsettled]
      exact hsettled

/-- Where all names that are defined are among finitely many, an evaluation that comes to its end at all does so with one
level of room more than there are names. -/
theorem Closes.enough {name : String} (hname : names name) {defined : List String}
    (among : ∀ name, names name → (F.adjective? name).isSome = true → name ∈ defined) {depth : Nat}
    (settled : Settled (F.evaluateWithin depth name node)) :
    Settled (F.evaluateWithin (defined.length + 1) name node) := by
  by_contra givenUp
  obtain ⟨room, hroom, givenUp', settled'⟩ : ∃ room ≥ defined.length + 1,
      ¬Settled (F.evaluateWithin room name node) ∧ Settled (F.evaluateWithin (room + 1) name node) := by
    by_contra never
    have all (more : Nat) : ¬Settled (F.evaluateWithin (defined.length + 1 + more) name node) := by
      induction more with
      | zero => exact givenUp
      | succ more ih => exact fun h => never ⟨_, Nat.le_add_right _ _, ih, h⟩
    refine all depth ?_
    rwa [evaluateWithin_of_le (Nat.le_add_left _ _) settled]
  obtain ⟨chain, distinct, hlength, links⟩ := closes.chain hname givenUp' settled'
  have hle := (List.subperm_of_subset distinct fun link hlink =>
    among link (links link hlink).1 (links link hlink).2.1).length_le
  omega

end Chains

end Framework

end Rationale
