import Mathlib.Data.List.Pairwise
import Mathlib.Data.List.Nodup
import Rationale.Proofs.Minimax
import Rationale.Proofs.Ranks
import Rationale.Proofs.Scores

/-!
Ranks and the child that is propagated back tell the same story. A node is best among its siblings if its score is
strictly greater than theirs, and worst if none of theirs is smaller; so the child whose score is taken on the
opponent's turn is always worst, and the one taken on the other turns is best unless it has an equal.
-/

namespace Rationale

open GameTree

variable {t : GameTree}

namespace TreeNode

theorem nodup_children {s : TreeSpec} (h : ofSpec s = .ok t) (n : TreeNode t) : n.children.Nodup := by
  obtain ⟨parent, depth, s', hn⟩ := exists_standing h n
  have places : n.entry.children.Nodup := by
    rw [hn.children_eq, TreeSpec.map_fst_placed]
    exact (TreeSpec.pairwise_places _ _).imp Nat.ne_of_lt
  refine places.filterMap fun place place' c hc hc' => ?_
  rw [← node?_eq_some.mp hc, ← node?_eq_some.mp hc']

/-- The child whose score a node takes is as good for the player to move as every other. -/
theorem exists_scoreChild_atLeast {s : TreeSpec} (h : ofSpec s = .ok t) {p : TreeNode t}
    (numbers : ∀ c ∈ p.children, c.score.isNaN = false) (inner : p.children ≠ []) :
    ∃ c ∈ p.children, p.scoreChild? = some c ∧
      ∀ m ∈ p.children, TreeSpec.atLeast p.depth c.score m.score = true := by
  obtain ⟨parent, depth, s', hp⟩ := exists_standing h p
  obtain ⟨i, c, hchoice, hc⟩ := exists_choice inner depth
  refine ⟨c, List.mem_of_getElem? hc, ?_, ?_⟩
  · rw [hp.scoreChild?_eq, hchoice]
    exact hc
  · rw [hp.depth_eq]
    exact (choice_leads numbers hchoice).2

end TreeNode

namespace Minimax

/-- The adjective ranks a node among the other children of its parent by their scores. -/
inductive RanksScores (F : Framework (TreeNode t)) (kind : RankKind) (name : String) : Prop
  | of_kinds {comparison group base : String} {a c g q : Adjective (TreeNode t)} (ha : F.adjective? name = some a)
      (hrank : a.kind = .rank kind comparison group) (hc : F.adjective? comparison = some c)
      (hcomparison : c.kind = .comparison base .greater) (hg : F.adjective? group = some g)
      (hgroup : g.kind = .nodesGroup true) (members : g.getter = some siblings) (hq : F.adjective? base = some q)
      (hbase : q.kind = .quantitative) (number : q.getter = some score)

section Ranked
variable {F : Framework (TreeNode t)} {kind : RankKind} {name : String} (ranks : RanksScores F kind name)

include ranks

/-- A rank has a value below the root, which depends on the scores alone. -/
theorem RanksScores.evaluate {n p : TreeNode t} (hp : n.parent? = some p) : ∃ holds,
    F.evaluate name n = .ok (.bool holds) ∧
      (holds = true ↔ ∀ m ∈ p.children, m ≠ n → kind.agrees (m.score.lt n.score) = true) := by
  obtain @⟨comparison, group, base, a, c, g, q, ha, hrank, hc, hcomparison, hg, hgroup, members, hq, hbase, number⟩ := ranks
  obtain ⟨depth, hdepth⟩ := Framework.evaluate_eq_within ha
  have scores (m : TreeNode t) : F.evaluateWithin (depth + 1) base m = .ok (.number m.score) := by
    rw [Framework.evaluateWithin_fetch hq (by rw [hbase]; rfl), Adjective.fetch, number, hbase]
    rfl
  have others : F.evaluateWithin (depth + 1) group n = .ok (.nodes (p.children.filter (!Node.same · n))) := by
    rw [Framework.evaluateWithin_fetch hg (by rw [hgroup]; rfl), Adjective.fetch, members, hgroup]
    simp only [siblings, hp]
    rfl
  have compared (m : TreeNode t) : F.compareBy (F.evaluateWithin (depth + 1)) comparison n m
      = .ok (m.score.lt n.score) := Framework.compareBy_ok hc hcomparison (scores n) (scores m)
  obtain ⟨holds, verdict⟩ : ∃ holds, kind.verdict (F.compareBy (F.evaluateWithin (depth + 1)) comparison n)
      (p.children.filter (!Node.same · n)) = .ok holds := kind.verdict_ok fun m _ => ⟨_, compared m⟩
  refine ⟨holds, ?_, ?_⟩
  · rw [hdepth]
    exact (Framework.evaluateWithin_rank ha hrank).mpr ⟨_, _, others, verdict, rfl⟩
  · have other {m : TreeNode t} : m ∈ p.children.filter (!Node.same · n) ↔ m ∈ p.children ∧ m ≠ n := by
      rw [List.mem_filter, Bool.not_eq_true', ← Bool.not_eq_true, TreeNode.same_iff]
    rcases RankKind.verdict_cases verdict with ⟨rfl, all⟩ | ⟨rfl, m, hm, differs⟩
    · refine iff_of_true rfl fun m hm hne => ?_
      obtain ⟨b, hb, agrees⟩ := all m (other.mpr ⟨hm, hne⟩)
      cases (compared m).symm.trans hb
      exact agrees
    · refine iff_of_false Bool.false_ne_true fun all => ?_
      obtain ⟨b, hb, disagrees⟩ := differs
      cases (compared m).symm.trans hb
      obtain ⟨hm, hne⟩ := other.mp hm
      rw [all m hm hne] at disagrees
      cases disagrees

theorem RanksScores.holds_iff {n p : TreeNode t} (hp : n.parent? = some p) : F.evaluate name n = .ok (.bool true) ↔
    ∀ m ∈ p.children, m ≠ n → kind.agrees (m.score.lt n.score) = true := by
  obtain ⟨holds, hv, hiff⟩ := ranks.evaluate hp
  rw [hv, ← hiff]
  constructor
  · intro h
    cases h
    rfl
  · rintro rfl
    rfl

end Ranked

theorem lowlevel_best : RanksScores (t := t) lowlevel .max "best" := .of_kinds rfl rfl rfl rfl rfl rfl rfl rfl rfl rfl

theorem lowlevel_worst : RanksScores (t := t) lowlevel .min "worst" := .of_kinds rfl rfl rfl rfl rfl rfl rfl rfl rfl rfl

theorem highlevel_best : RanksScores (t := t) highlevel .max "the best" :=
  .of_kinds rfl rfl rfl rfl rfl rfl rfl rfl rfl rfl

theorem highlevel_worst : RanksScores (t := t) highlevel .min "the best the opponent can do" :=
  .of_kinds rfl rfl rfl rfl rfl rfl rfl rfl rfl rfl

/-! ### Best and worst -/

/-- What the two ranks among the children of a node tell of their scores, and of the child whose score is taken. -/
structure TellsScores (F : Framework (TreeNode t)) (best worst : String) (p : TreeNode t) : Prop where
  /-- On the opponent's turn the child is worst; on the other turns it is best unless it has an equal. -/
  scoreChild : ∃ c ∈ p.children, p.scoreChild? = some c ∧
    (p.depth % 2 = 1 → F.evaluate worst c = .ok (.bool true)) ∧
    (p.depth % 2 = 0 → ∃ holds, F.evaluate best c = .ok (.bool holds) ∧
      (holds = true ↔ ∀ m ∈ p.children, m ≠ c → m.score.lt c.score = true))
  notBoth : 2 ≤ p.children.length → ∀ c ∈ p.children,
    ¬(F.evaluate best c = .ok (.bool true) ∧ F.evaluate worst c = .ok (.bool true))
  oneBest : 2 ≤ p.children.length → ∀ c ∈ p.children, ∀ c' ∈ p.children,
    F.evaluate best c = .ok (.bool true) → F.evaluate best c' = .ok (.bool true) → c = c'
  distinct : p.children.Pairwise (fun c c' => c.score.eq c'.score = false) →
    (∃! c, c ∈ p.children ∧ F.evaluate best c = .ok (.bool true)) ∧
    ∃! c, c ∈ p.children ∧ F.evaluate worst c = .ok (.bool true)
  only : ∀ c, p.children = [c] → F.evaluate best c = .ok (.bool true) ∧ F.evaluate worst c = .ok (.bool true)

section Children
variable {s : TreeSpec} (built : ofSpec s = .ok t) {p : TreeNode t} (numbers : ∀ c ∈ p.children, c.score.isNaN = false)

include built numbers

theorem best_iff {F : Framework (TreeNode t)} {best : String} (ranks : RanksScores F .max best) {c : TreeNode t}
    (hc : c ∈ p.children) : F.evaluate best c = .ok (.bool true) ↔
      ∀ m ∈ p.children, m ≠ c → m.score.line < c.score.line := by
  rw [ranks.holds_iff ((TreeNode.mem_children built).mp hc)]
  exact forall_congr' fun m => forall_congr' fun hm => forall_congr' fun _ => Number.lt_iff (numbers m hm) (numbers c hc)

theorem worst_iff {F : Framework (TreeNode t)} {worst : String} (ranks : RanksScores F .min worst) {c : TreeNode t}
    (hc : c ∈ p.children) : F.evaluate worst c = .ok (.bool true) ↔
      ∀ m ∈ p.children, m ≠ c → c.score.line ≤ m.score.line := by
  rw [ranks.holds_iff ((TreeNode.mem_children built).mp hc)]
  refine forall_congr' fun m => forall_congr' fun hm => forall_congr' fun _ => ?_
  rw [RankKind.agrees, Bool.not_eq_true', ← Bool.not_eq_true, Number.lt_iff (numbers m hm) (numbers c hc), Int.not_lt]

omit built in
/-- Some child has the greatest score, and some the least. -/
theorem exists_extreme (inner : p.children ≠ []) :
    (∃ c ∈ p.children, ∀ m ∈ p.children, m.score.line ≤ c.score.line) ∧
      ∃ c ∈ p.children, ∀ m ∈ p.children, c.score.line ≤ m.score.line := by
  have best (depth : Nat) : ∃ c ∈ p.children, ∀ m ∈ p.children,
      TreeSpec.gain depth m.score ≤ TreeSpec.gain depth c.score := by
    obtain ⟨i, c, hchoice, hc⟩ := TreeNode.exists_choice inner depth
    have hmem := List.mem_of_getElem? hc
    refine ⟨c, hmem, fun m hm => (TreeSpec.atLeast_iff (numbers c hmem) (numbers m hm)).mp ?_⟩
    exact (TreeNode.choice_leads numbers hchoice).2 m hm
  refine ⟨best 0, ?_⟩
  obtain ⟨c, hc, least⟩ := best 1
  exact ⟨c, hc, fun m hm => Int.neg_le_neg_iff.mp (least m hm)⟩

theorem tellsScores {F : Framework (TreeNode t)} {best worst : String} (hbest : RanksScores F .max best)
    (hworst : RanksScores F .min worst) (inner : p.children ≠ []) : TellsScores F best worst p where
  scoreChild := by
    obtain ⟨c, hc, hchosen, good⟩ := TreeNode.exists_scoreChild_atLeast built numbers inner
    refine ⟨c, hc, hchosen, fun odd => ?_, fun _ => hbest.evaluate ((TreeNode.mem_children built).mp hc)⟩
    -- At an odd depth the gain turns scores around, so the chosen child has the least of them.
    rw [worst_iff built numbers hworst hc]
    intro m hm _
    have hle := (TreeSpec.atLeast_iff (numbers c hc) (numbers m hm)).mp (good m hm)
    simp only [TreeSpec.gain, odd, Nat.one_ne_zero, ↓reduceIte] at hle
    omega
  notBoth := by
    rintro two c hc ⟨isBest, isWorst⟩
    obtain ⟨m, hm, hne⟩ : ∃ m ∈ p.children, m ≠ c := by
      by_contra alone
      have hsub : p.children ⊆ [c] := fun m hm => List.mem_singleton.mpr (by_contra fun hne => alone ⟨m, hm, hne⟩)
      have hle := (List.subperm_of_subset (TreeNode.nodup_children built p) hsub).length_le
      rw [List.length_singleton] at hle
      omega
    have hlt := (best_iff built numbers hbest hc).mp isBest m hm hne
    have hle := (worst_iff built numbers hworst hc).mp isWorst m hm hne
    omega
  oneBest := by
    intro _ c hc c' hc' isBest isBest'
    by_contra hne
    have hlt := (best_iff built numbers hbest hc).mp isBest c' hc' (Ne.symm hne)
    have hlt' := (best_iff built numbers hbest hc').mp isBest' c hc hne
    omega
  distinct := by
    intro distinct
    obtain ⟨⟨g, hg, greatest⟩, l, hl, least⟩ := exists_extreme numbers inner
    -- Different scores are at different points of the line, so none but the extreme child has the extreme score.
    have lines : p.children.Pairwise fun c c' => c.score.line ≠ c'.score.line := by
      refine distinct.imp_of_mem fun {c c'} hc hc' h => ?_
      simpa [Number.eq, numbers c hc, numbers c' hc'] using h
    have symm : Std.Symm fun c c' : TreeNode t => c.score.line ≠ c'.score.line := ⟨fun _ _ => Ne.symm⟩
    have apart {c c' : TreeNode t} (hc : c ∈ p.children) (hc' : c' ∈ p.children) (hne : c ≠ c') :
        c.score.line ≠ c'.score.line := lines.forall hc hc' hne
    refine ⟨⟨g, ⟨hg, ?_⟩, ?_⟩, l, ⟨hl, ?_⟩, ?_⟩
    · rw [best_iff built numbers hbest hg]
      intro m hm hne
      have hle := greatest m hm
      have happart := apart hm hg hne
      omega
    · rintro c ⟨hc, isBest⟩
      by_contra hne
      have hlt := (best_iff built numbers hbest hc).mp isBest g hg (Ne.symm hne)
      have hle := greatest c hc
      omega
    · rw [worst_iff built numbers hworst hl]
      exact fun m hm _ => least m hm
    · rintro c ⟨hc, isWorst⟩
      by_contra hne
      have hle := (worst_iff built numbers hworst hc).mp isWorst l hl (Ne.symm hne)
      exact apart hc hl hne (Int.le_antisymm hle (least c hc))
  only := by
    intro c honly
    have hc : c ∈ p.children := honly ▸ List.mem_singleton_self c
    have alone : ∀ m ∈ p.children, m ≠ c → False := by
      intro m hm hne
      rw [honly, List.mem_singleton] at hm
      exact hne hm
    refine ⟨(best_iff built numbers hbest hc).mpr ?_, (worst_iff built numbers hworst hc).mpr ?_⟩
    · exact fun m hm hne => (alone m hm hne).elim
    · exact fun m hm hne => (alone m hm hne).elim

end Children

/-- In both frameworks the ranks among the children of a node, if their scores are numbers, tell what back-propagation
does. -/
theorem ranks_tell {s : TreeSpec} (built : ofSpec s = .ok t) {p : TreeNode t}
    (numbers : ∀ c ∈ p.children, c.score.isNaN = false) (inner : p.isLeaf = false) :
    TellsScores lowlevel "best" "worst" p ∧
      TellsScores highlevel "the best" "the best the opponent can do" p := by
  obtain ⟨c, hc, -⟩ := TreeNode.exists_scoreChild built inner
  have nonempty : p.children ≠ [] := List.ne_nil_of_mem hc
  exact ⟨tellsScores built numbers lowlevel_best lowlevel_worst nonempty,
    tellsScores built numbers highlevel_best highlevel_worst nonempty⟩

/-- After the left move of the tie the opponent replies with the worst of two moves. Their scores differ, so one is best
and one worst. -/
theorem ranks_tell_reply : ∃ t, ofSpec TreeSpec.tie = .ok t ∧ ∃ p c : TreeNode t, p.label = "left" ∧
    p.scoreChild? = some c ∧ lowlevel.evaluate "worst" c = .ok (.bool true) ∧
    (∃! c, c ∈ p.children ∧ lowlevel.evaluate "best" c = .ok (.bool true)) ∧
    ∃! c, c ∈ p.children ∧ highlevel.evaluate "the best the opponent can do" c = .ok (.bool true) := by
  refine ⟨_, rfl, ⟨⟨1, by decide⟩⟩, ?_⟩
  obtain ⟨low, high⟩ := ranks_tell (s := TreeSpec.tie) rfl (p := ⟨⟨1, by decide⟩⟩) (by decide) (by decide)
  obtain ⟨c, hc, chosen, worst, -⟩ := low.scoreChild
  exact ⟨c, by decide, chosen, worst (by decide), (low.distinct (by decide)).1, (high.distinct (by decide)).2⟩

end Minimax

end Rationale
