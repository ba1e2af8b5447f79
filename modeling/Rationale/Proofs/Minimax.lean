import Rationale.GameTree.Frameworks
import Rationale.Proofs.Clear
import Rationale.Proofs.Evaluation
import Rationale.Proofs.Sweep

/-!
Both minimax frameworks explain every tree. A score comes from the child that is propagated back, that child from
its rank among its siblings, and the rank from the scores of nodes that are all one step deeper; so the questions
that an explanation goes through become smaller in a measure of depth and kind, and each of them has a value.
-/

namespace Rationale

theorem Decimal.question_not_mem_positional (d : Decimal) : '?' ∉ d.positional [] := by
  have chars : '?' ∉ d.chars := by
    intro h
    have := Nat.isDigit_of_mem_toDigits (by decide) (by decide) h
    cases this
  have zeros (n : Nat) : '?' ∉ Rationale.zeros n := by
    intro h
    have := List.eq_of_mem_replicate h
    cases this
  unfold Decimal.positional
  split
  · simp [chars, zeros]
  · split
    · intro h
      rcases List.mem_append.mp h with h | h
      · exact chars (List.mem_of_mem_take h)
      · rcases List.mem_cons.mp h with h | h
        · cases h
        · exact chars (List.mem_of_mem_drop h)
    · simp [chars, zeros]

theorem boolText_ne_unresolved (b : Bool) : boolText b ≠ Claim.unresolvedValue := by
  cases b <;> decide

theorem Number.text_ne_unresolved (x : Number) : x.text ≠ Claim.unresolvedValue := by
  have signed {cs : List Char} (h : '?' ∉ cs) : x.signed cs ≠ Claim.unresolvedValue := by
    intro heq
    have hlist := congrArg String.toList heq
    rw [Number.signed, String.toList_ofList] at hlist
    have hmem : '?' ∈ (if x.negative then '-' :: cs else cs) := by
      rw [hlist]
      decide
    split at hmem
    · rcases List.mem_cons.mp hmem with hmem | hmem
      · cases hmem
      · exact h hmem
    · exact h hmem
  unfold Number.text
  split
  · decide
  · split
    · exact signed (by decide)
    · split
      · exact signed (by decide)
      · exact signed (Decimal.question_not_mem_positional _)

theorem Value.toText_nodes_ne_unresolved {N : Type} [Node N] {ns : List N}
    (h : ∀ n ∈ ns, Node.label n ≠ Claim.unresolvedValue) : (Value.nodes ns).toText ≠ Claim.unresolvedValue := by
  match ns with
  | [] => exact (by decide : "none" ≠ Claim.unresolvedValue)
  | [n] =>
    rw [Value.toText, List.map_singleton, String.intercalate_singleton]
    · exact h n (List.mem_singleton_self n)
    · exact fun heq => by cases heq
  | n :: m :: rest =>
    rw [Value.toText, List.map_cons, List.map_cons, String.intercalate_cons_cons]
    · intro heq
      have hlength := congrArg String.length heq
      rw [String.length_append, String.length_append] at hlength
      have : (", " : String).length = 2 := by decide
      have : Claim.unresolvedValue.length = 1 := by decide
      omega
    · exact fun heq => by cases heq

/-- A value is open in a claim only if it reads like a placeholder. -/
theorem Adjective.claim_resolved {N : Type} [Node N] (a : Adjective N) (node : N) {v : Value N}
    (h : v.toText ≠ Claim.unresolvedValue) : (a.claim node v).isUnresolved = false := by
  unfold Adjective.claim
  split
  · rfl
  · rfl
  · exact beq_eq_false_iff_ne.mpr h

namespace Minimax

variable {t : GameTree}

/-- How an adjective about game trees gets its values and is explained. -/
inductive Speaks (F : Framework (TreeNode t)) (a : Adjective (TreeNode t)) : Prop
  | property {holds : TreeNode t → Bool} {x : Assumption} (kind : a.kind = .boolean)
      (getter : a.getter = some fun n => .ok (.bool (holds n))) (template : a.template = .assume x)
  | score {leaf child : String} {l c : Adjective (TreeNode t)} {x y : Assumption} (kind : a.kind = .quantitative)
      (getter : a.getter = some score)
      (template : a.template
        = .branch (holds leaf) (.assume x) (.all [.assume y, possessVia child a.name]))
      (hl : F.adjective? leaf = some l) (hleaf : l.kind = .boolean ∧ l.getter = some isLeaf)
      (hc : F.adjective? child = some c) (hchild : c.kind = .pointer)
  | pointer {turn worst best : String} {b : Adjective (TreeNode t)} {x y : Assumption} (kind : a.kind = .pointer)
      (getter : a.getter = some scoreChild)
      (template : a.template = .branch (holds turn) (.all [.assume x, possessVia a.name worst])
        (.all [.assume y, possessVia a.name best]))
      (hb : F.adjective? turn = some b) (hturn : b.kind = .boolean)
      (ranks : ∀ name ∈ [worst, best], ∃ r, F.adjective? name = some r ∧ r.kind.origin = .rank)
  | siblings {excludingSelf : Bool} {x : Assumption} (kind : a.kind = .nodesGroup excludingSelf)
      (getter : a.getter = some siblings) (template : a.template = .assume x)
  | comparison {base : String} {operator : Operator} {q : Adjective (TreeNode t)} {x : Assumption}
      (kind : a.kind = .comparison base operator) (template : a.template = .all [.assume x, .compared base])
      (hq : F.adjective? base = some q) (hbase : q.kind = .quantitative)
  | rank {kind : RankKind} {comparison group : String} {c g : Adjective (TreeNode t)} {x : Assumption}
      {positive : Bool} (kind : a.kind = .rank kind comparison group)
      (template : a.template = .all [.assume x, .compareGroup comparison group positive])
      (hc : F.adjective? comparison = some c) (hcomparison : c.kind.origin = .comparison)
      (hg : F.adjective? group = some g) (hgroup : g.kind.origin = .nodesGroup)

/-- The framework speaks about game trees by such adjectives only. -/
def Vocabulary (F : Framework (TreeNode t)) : Prop :=
  ∀ a ∈ F.adjectives, F.adjective? a.name = some a ∧ Speaks F a

theorem lowlevel_vocabulary : Vocabulary (t := t) lowlevel := by
  intro a ha
  simp only [lowlevel, List.mem_cons, List.not_mem_nil, or_false] at ha
  rcases ha with rfl | rfl | rfl | rfl | rfl | rfl | rfl | rfl
  · exact ⟨rfl, .property rfl rfl rfl⟩
  · exact ⟨rfl, .score rfl rfl rfl rfl ⟨rfl, rfl⟩ rfl rfl⟩
  · exact ⟨rfl, .property rfl rfl rfl⟩
  · refine ⟨rfl, .pointer rfl rfl rfl rfl rfl ?_⟩
    exact List.forall_mem_cons.mpr ⟨⟨_, rfl, rfl⟩, List.forall_mem_singleton.mpr ⟨_, rfl, rfl⟩⟩
  · exact ⟨rfl, .comparison rfl rfl rfl rfl⟩
  · exact ⟨rfl, .siblings rfl rfl rfl⟩
  · exact ⟨rfl, .rank rfl rfl rfl rfl rfl rfl⟩
  · exact ⟨rfl, .rank rfl rfl rfl rfl rfl rfl⟩

theorem highlevel_vocabulary : Vocabulary (t := t) highlevel := by
  intro a ha
  simp only [highlevel, List.mem_cons, List.not_mem_nil, or_false] at ha
  rcases ha with rfl | rfl | rfl | rfl | rfl | rfl | rfl | rfl
  · exact ⟨rfl, .property rfl rfl rfl⟩
  · exact ⟨rfl, .score rfl rfl rfl rfl ⟨rfl, rfl⟩ rfl rfl⟩
  · exact ⟨rfl, .property rfl rfl rfl⟩
  · refine ⟨rfl, .pointer rfl rfl rfl rfl rfl ?_⟩
    exact List.forall_mem_cons.mpr ⟨⟨_, rfl, rfl⟩, List.forall_mem_singleton.mpr ⟨_, rfl, rfl⟩⟩
  · exact ⟨rfl, .comparison rfl rfl rfl rfl⟩
  · exact ⟨rfl, .siblings rfl rfl rfl⟩
  · exact ⟨rfl, .rank rfl rfl rfl rfl rfl rfl⟩
  · exact ⟨rfl, .rank rfl rfl rfl rfl rfl rfl⟩

/-! ### Values -/

theorem evaluate_property {F : Framework (TreeNode t)} {name : String} {a : Adjective (TreeNode t)}
    (ha : F.adjective? name = some a) (hk : a.kind = .boolean) {holds : TreeNode t → Bool}
    (getter : a.getter = some fun n => .ok (.bool (holds n))) (n : TreeNode t) :
    F.evaluate name n = .ok (.bool (holds n)) := by
  rw [Framework.evaluate, Framework.evaluateWithin_fetch ha (by rw [hk]; rfl), Adjective.fetch, getter, hk]
  rfl

section Values
variable {F : Framework (TreeNode t)} (vocabulary : Vocabulary F) {name : String} {a : Adjective (TreeNode t)}
  (ha : F.adjective? name = some a)

include vocabulary ha

theorem Vocabulary.speaks : Speaks F a := (vocabulary a (Framework.adjective?_mem ha)).2

theorem evaluate_score (hk : a.kind = .quantitative) (depth : Nat) (n : TreeNode t) :
    F.evaluateWithin (depth + 1) name n = .ok (.number n.score) := by
  cases vocabulary.speaks ha with
  | score _ getter =>
    rw [Framework.evaluateWithin_fetch ha (by rw [hk]; rfl), Adjective.fetch, getter, hk]
    rfl
  | _ kind => exact absurd (hk.symm.trans kind) (by simp)

theorem evaluate_pointer (hk : a.kind = .pointer) {n c : TreeNode t} (hc : n.scoreChild? = some c) :
    F.evaluate name n = .ok (.node c) := by
  cases vocabulary.speaks ha with
  | pointer _ getter =>
    rw [Framework.evaluate, Framework.evaluateWithin_fetch ha (by rw [hk]; rfl), Adjective.fetch, getter, hk]
    simp only [scoreChild, hc]
    rfl
  | _ kind => exact absurd (hk.symm.trans kind) (by simp)

theorem evaluate_siblings (hk : a.kind.origin = .nodesGroup) {n p : TreeNode t} (hp : n.parent? = some p) :
    ∃ members, members ⊆ p.children ∧ ∀ depth, F.evaluateWithin (depth + 1) name n = .ok (.nodes members) := by
  cases vocabulary.speaks ha with
  | @siblings excludingSelf x kind getter =>
    have fetched (depth : Nat) : F.evaluateWithin (depth + 1) name n
        = .ok (.without n a.kind (.nodes p.children)) := by
      rw [Framework.evaluateWithin_fetch ha (by rw [kind]; rfl), Adjective.fetch, getter, kind]
      simp only [siblings, hp]
      rfl
    unfold Value.without at fetched
    dsimp only at fetched
    split at fetched
    · exact ⟨_, List.filter_sublist.subset, fetched⟩
    · exact ⟨_, List.Subset.refl _, fetched⟩
  | _ kind => rw [kind] at hk; cases hk

theorem compare_ok (hk : a.kind.origin = .comparison) (depth : Nat) (n m : TreeNode t) :
    ∃ holds, F.compareBy (F.evaluateWithin (depth + 1)) name n m = .ok holds := by
  cases vocabulary.speaks ha with
  | comparison kind _ hq hbase =>
    exact ⟨_, Framework.compareBy_ok ha kind (evaluate_score vocabulary hq hbase depth n)
      (evaluate_score vocabulary hq hbase depth m)⟩
  | _ kind => rw [kind] at hk; cases hk

theorem evaluate_rank (hk : a.kind.origin = .rank) {n p : TreeNode t} (hp : n.parent? = some p) :
    ∃ holds, F.evaluate name n = .ok (.bool holds) := by
  cases vocabulary.speaks ha with
  | rank kind _ hc hcomparison hg hgroup =>
    obtain ⟨members, -, evaluated⟩ := evaluate_siblings vocabulary hg hgroup hp
    exact Framework.evaluate_rank ha kind evaluated fun depth m _ => compare_ok vocabulary hc hcomparison depth n m
  | _ kind => rw [kind] at hk; cases hk

end Values

/-! ### Questions -/

/-- A question that has an answer: ranks and siblings are asked about below the root, pointers above the leaves. -/
structure Answerable (F : Framework (TreeNode t)) (g : Goal (TreeNode t)) (a : Adjective (TreeNode t)) : Prop where
  defined : F.adjective? g.adjective = some a
  other : g.other?.isSome = a.isComparison
  below : a.kind.origin = .rank ∨ a.kind.origin = .nodesGroup → ∃ p, g.node.parent? = some p
  above : a.kind.origin = .pointer → g.node.isLeaf = false

/-- How much there is below a question about a kind of adjective, on a node some steps above the deepest. -/
def weight (steps : Nat) : OriginKind → Nat
  | .quantitative => 4 * steps + 3
  | .pointer => 4 * steps + 2
  | .rank => 4 * steps + 5
  | .comparison => 4 * steps + 4
  | _ => 2

/-- How much there is below a question, for a tree of some height. -/
def rank (F : Framework (TreeNode t)) (height : Nat) : Goal (TreeNode t) → Nat
  | .comparison _ n m => weight (max (height - n.depth) (height - m.depth)) .comparison
  | .value name n =>
    match F.adjective? name with
    | some a => weight (height - n.depth) a.kind.origin
    | none => 2

theorem rank_same (F : Framework (TreeNode t)) (height : Nat) {g h : Goal (TreeNode t)} (hsame : g.same h = true) :
    rank F height g = rank F height h := by
  cases g <;> cases h <;> simp only [Goal.same, Bool.and_eq_true, beq_iff_eq, TreeNode.same_iff,
    Bool.false_eq_true] at hsame
  · rw [hsame.1, hsame.2]
  · rw [hsame.1.1, hsame.1.2, hsame.2]

theorem two_le_weight (steps : Nat) (k : OriginKind) : 2 ≤ weight steps k := by
  cases k <;> simp only [weight] <;> omega

theorem two_le_rank (F : Framework (TreeNode t)) (height : Nat) (g : Goal (TreeNode t)) : 2 ≤ rank F height g := by
  unfold rank
  split
  · exact two_le_weight _ _
  · split
    · exact two_le_weight _ _
    · exact Nat.le_refl 2

section Explained
variable {F : Framework (TreeNode t)} {height : Nat}

theorem rank_value {name : String} {a : Adjective (TreeNode t)} (ha : F.adjective? name = some a) (n : TreeNode t) :
    rank F height (.value name n) = weight (height - n.depth) a.kind.origin := by
  rw [rank, ha]

theorem Answerable.value {name : String} {a : Adjective (TreeNode t)} (ha : F.adjective? name = some a)
    (hk : a.kind.origin ≠ .comparison) {n : TreeNode t}
    (below : a.kind.origin = .rank ∨ a.kind.origin = .nodesGroup → ∃ p, n.parent? = some p)
    (above : a.kind.origin = .pointer → n.isLeaf = false) : Answerable F (.value name n) a where
  defined := ha
  other := (beq_eq_false_iff_ne.mpr hk).symm
  below := below
  above := above

theorem Answerable.comparison {name : String} {a : Adjective (TreeNode t)} (ha : F.adjective? name = some a)
    (hk : a.kind.origin = .comparison) (n m : TreeNode t) : Answerable F (.comparison name n m) a where
  defined := ha
  other := (beq_iff_eq.mpr hk).symm
  below := by rw [hk]; exact fun h => by rcases h with h | h <;> cases h
  above := by rw [hk]; exact fun h => by cases h

/-- A question that has an answer and less below it than `g`. -/
def Smaller (F : Framework (TreeNode t)) (height : Nat) (g g' : Goal (TreeNode t)) : Prop :=
  (∃ a, Answerable F g' a) ∧ rank F height g' < rank F height g

theorem smaller_value {g : Goal (TreeNode t)} {name : String} {a : Adjective (TreeNode t)} {k : OriginKind}
    (ha : F.adjective? name = some a) (hk : a.kind.origin = k) (hne : k ≠ .comparison) {n : TreeNode t}
    (below : k = .rank ∨ k = .nodesGroup → ∃ p, n.parent? = some p) (above : k = .pointer → n.isLeaf = false)
    (lt : weight (height - n.depth) k < rank F height g) : Smaller F height g (.value name n) := by
  subst hk
  refine ⟨⟨a, .value ha hne below above⟩, ?_⟩
  rw [rank_value ha]
  exact lt

/-- A question is answered from smaller ones. -/
structure Explained (F : Framework (TreeNode t)) (height : Nat) (g : Goal (TreeNode t)) (a : Adjective (TreeNode t)) :
    Prop where
  verdict : ∃ claim, F.verdict a g = .ok claim
  runs : a.template.Runs F g
  asks : ∀ levels, ∀ ask ∈ a.template.asks F g levels, ask.1 = 0 ∧ Smaller F height g ask.2

/-- Goals of the next level. -/
theorem asked_next {g : Goal (TreeNode t)} {goals : List (Goal (TreeNode t))}
    (h : ∀ g' ∈ goals, Smaller F height g g') : ∀ ask ∈ Goal.asked goals, ask.1 = 0 ∧ Smaller F height g ask.2 :=
  List.forall_mem_map.mpr fun g' hg' => ⟨rfl, h g' hg'⟩

theorem verdict_value {name : String} {a : Adjective (TreeNode t)} {n : TreeNode t} {v : Value (TreeNode t)}
    (h : F.evaluate name n = .ok v) : F.verdict a (.value name n) = .ok (a.claim n v) := by
  rw [Framework.verdict, h]
  rfl

theorem lead_pointer {g : Goal (TreeNode t)} {pointer : String} {c : TreeNode t}
    (h : F.evaluate pointer g.node = .ok (.node c)) :
    F.lead g (some pointer) true
      = .ok (if pointer ≠ g.adjective ∧ true then [.value pointer g.node] else [], c) := by
  rw [Framework.lead, Framework.follow, h]
  rfl

theorem explained_assumed {g : Goal (TreeNode t)} {a : Adjective (TreeNode t)} {x : Assumption}
    (verdict : ∃ claim, F.verdict a g = .ok claim) (template : a.template = .assume x) : Explained F height g a where
  verdict := verdict
  runs := by
    rw [template]
    exact .assume x
  asks := fun levels => by
    rw [template, Template.asks]
    exact fun _ h => by cases h

/-- An assumption and what a pointer leads to: the pointer is asked for unless it is what is explained. -/
theorem asks_via {g : Goal (TreeNode t)} {pointer adjective : String} {c : TreeNode t} {x : Assumption} {levels : Nat}
    (pointed : F.evaluate pointer g.node = .ok (.node c))
    (hpointer : pointer ≠ g.adjective → Smaller F height g (.value pointer g.node))
    (htarget : Smaller F height g (.value adjective c)) :
    ∀ ask ∈ Template.asks F g levels (.all [.assume x, possessVia pointer adjective]),
      ask.1 = 0 ∧ Smaller F height g ask.2 := by
  rw [Template.asks, Template.asksAll, Template.asks, Template.asksAll, Template.asksAll, List.nil_append,
    List.append_nil, possessVia, Template.asks, lead_pointer pointed]
  refine asked_next (List.forall_mem_append.mpr ⟨fun g' hg' => ?_, List.forall_mem_singleton.mpr htarget⟩)
  split at hg'
  · rename_i hne
    exact List.mem_singleton.mp hg' ▸ hpointer hne.1
  · cases hg'

theorem runs_via {g : Goal (TreeNode t)} {pointer : String} (adjective : String) {c : TreeNode t} (x : Assumption)
    (pointed : F.evaluate pointer g.node = .ok (.node c)) :
    Template.Runs F g (.all [.assume x, possessVia pointer adjective]) :=
  .all (List.forall_mem_cons.mpr ⟨.assume x, List.forall_mem_singleton.mpr (.possess (lead_pointer pointed))⟩)

end Explained

section Questions
variable {s : TreeSpec} (built : GameTree.ofSpec s = .ok t) {F : Framework (TreeNode t)} (vocabulary : Vocabulary F)

include built vocabulary

/-- The score of a leaf needs no other; that of an inner node is the score of the child that is propagated back. -/
theorem explained_score {name : String} {a : Adjective (TreeNode t)} (ha : F.adjective? name = some a)
    (hk : a.kind = .quantitative) (n : TreeNode t) : Explained F s.height (.value name n) a := by
  have hrank : rank F s.height (.value name n) = 4 * (s.height - n.depth) + 3 := by rw [rank_value ha, hk]; rfl
  cases vocabulary.speaks ha with
  | @score leaf child l c x y _ getter template hl hleaf hc hchild =>
    have hname := Framework.adjective?_name ha
    have decided : F.evaluate (holds leaf).adjective n = .ok (.bool n.isLeaf) :=
      evaluate_property hl hleaf.1 hleaf.2 n
    have hlead : F.lead (.value name n) (holds leaf).via true = .ok ([], n) := rfl
    have leafAsked : Smaller F s.height (.value name n) (.value leaf n) := by
      refine smaller_value (k := .boolean) hl (congrArg _ hleaf.1) (by decide) (by simp) (by simp) ?_
      rw [hrank]
      show 2 < _
      omega
    -- An inner node has a child to propagate back, one step further down.
    have inner (hn : n.isLeaf = false) : ∃ m, F.evaluate child n = .ok (.node m) ∧
        Smaller F s.height (.value name n) (.value child n) ∧
        Smaller F s.height (.value name n) (.value a.name m) := by
      obtain ⟨m, hm, hscore⟩ := TreeNode.exists_scoreChild built hn
      have hdepth := TreeNode.depth_of_parent? built ((TreeNode.mem_children built).mp hm)
      have hlt := TreeNode.depth_lt_height built hn
      refine ⟨m, evaluate_pointer vocabulary hc hchild hscore, ?_, ?_⟩
      · refine smaller_value (k := .pointer) hc (congrArg _ hchild) (by decide) (by simp) (fun _ => hn) ?_
        rw [hrank]
        show 4 * (s.height - n.depth) + 2 < _
        omega
      · refine smaller_value (k := .quantitative) (hname ▸ ha) (congrArg _ hk) (by decide) (by simp) (by simp) ?_
        rw [hrank]
        show 4 * (s.height - m.depth) + 3 < _
        omega
    refine ⟨⟨_, verdict_value (evaluate_score vocabulary ha hk _ n)⟩, ?_, fun levels => ?_⟩
    · rw [template]
      refine .branch hlead decided ?_
      cases hn : n.isLeaf with
      | true => exact .assume x
      | false =>
        obtain ⟨m, pointed, -⟩ := inner hn
        exact runs_via a.name y pointed
    · rw [template, Template.asks, hlead]
      dsimp only
      rw [decided]
      refine List.forall_mem_append.mpr ⟨asked_next (List.forall_mem_singleton.mpr leafAsked), ?_⟩
      cases hn : n.isLeaf with
      | true => exact fun _ h => by cases h
      | false =>
        obtain ⟨m, pointed, hpointer, htarget⟩ := inner hn
        exact asks_via pointed (fun _ => hpointer) htarget
  | _ kind => exact absurd (hk.symm.trans kind) (by simp)

/-- Which child is propagated back is explained by its rank among the children. -/
theorem explained_pointer {name : String} {a : Adjective (TreeNode t)} (ha : F.adjective? name = some a)
    (hk : a.kind = .pointer) {n : TreeNode t} (hn : n.isLeaf = false) :
    Explained F s.height (.value name n) a := by
  have hrank : rank F s.height (.value name n) = 4 * (s.height - n.depth) + 2 := by rw [rank_value ha, hk]; rfl
  cases vocabulary.speaks ha with
  | @pointer turn worst best b x y _ getter template hb hturn ranks =>
    have hname := Framework.adjective?_name ha
    obtain ⟨m, hm, hscore⟩ := TreeNode.exists_scoreChild built hn
    have hparent := (TreeNode.mem_children built).mp hm
    have hdepth := TreeNode.depth_of_parent? built hparent
    have hlt := TreeNode.depth_lt_height built hn
    have pointed : F.evaluate name n = .ok (.node m) := evaluate_pointer vocabulary ha hk hscore
    obtain ⟨inTurn, decided⟩ : ∃ inTurn, F.evaluate (holds turn).adjective n = .ok (.bool inTurn) := by
      cases vocabulary.speaks hb with
      | property _ getter => exact ⟨_, evaluate_property hb hturn getter n⟩
      | _ kind => exact absurd (hturn.symm.trans kind) (by simp)
    have hlead : F.lead (.value name n) (holds turn).via true = .ok ([], n) := rfl
    have turnAsked : Smaller F s.height (.value name n) (.value turn n) := by
      refine smaller_value (k := .boolean) hb (congrArg _ hturn) (by decide) (by simp) (by simp) ?_
      rw [hrank]
      show 2 < _
      omega
    -- A rank weighs more than a pointer on the same node, but the child is one step further down.
    have rankAsked {r : String} (hr : r ∈ [worst, best]) : Smaller F s.height (.value name n) (.value r m) := by
      obtain ⟨b, hb, hkind⟩ := ranks r hr
      refine smaller_value hb hkind (by decide) (fun _ => ⟨n, hparent⟩) (by simp) ?_
      rw [hrank]
      show 4 * (s.height - m.depth) + 5 < _
      omega
    refine ⟨⟨_, verdict_value pointed⟩, ?_, fun levels => ?_⟩
    · rw [template, hname]
      refine .branch hlead decided ?_
      cases inTurn with
      | true => exact runs_via worst x pointed
      | false => exact runs_via best y pointed
    · rw [template, hname, Template.asks, hlead]
      dsimp only
      rw [decided]
      refine List.forall_mem_append.mpr ⟨asked_next (List.forall_mem_singleton.mpr turnAsked), ?_⟩
      cases inTurn with
      | true => exact asks_via pointed (fun hne => absurd rfl hne) (rankAsked (by simp))
      | false => exact asks_via pointed (fun hne => absurd rfl hne) (rankAsked (by simp))
  | _ kind => exact absurd (hk.symm.trans kind) (by simp)

omit built in
/-- A comparison is explained by both scores. -/
theorem explained_comparison {name : String} {a : Adjective (TreeNode t)} (ha : F.adjective? name = some a)
    (hk : a.kind.origin = .comparison) (n m : TreeNode t) : Explained F s.height (.comparison name n m) a := by
  cases vocabulary.speaks ha with
  | @comparison base operator q x kind template hq hbase =>
    have scoreAsked (k : TreeNode t) (hle : s.height - k.depth ≤ max (s.height - n.depth) (s.height - m.depth)) :
        Smaller F s.height (.comparison name n m) (.value base k) := by
      refine smaller_value (k := .quantitative) hq (congrArg _ hbase) (by decide) (by simp) (by simp) ?_
      show 4 * (s.height - k.depth) + 3 < 4 * max (s.height - n.depth) (s.height - m.depth) + 4
      omega
    obtain ⟨holds, compared⟩ := compare_ok vocabulary ha hk F.adjectives.length n m
    refine ⟨⟨_, by rw [Framework.verdict, Framework.compare, Framework.evaluate, compared]; rfl⟩, ?_, fun levels => ?_⟩
    · rw [template]
      exact .all (List.forall_mem_cons.mpr ⟨.assume x, List.forall_mem_singleton.mpr (.compared rfl)⟩)
    · rw [template, Template.asks, Template.asksAll, Template.asks, Template.asksAll, Template.asksAll,
        List.nil_append, List.append_nil, Template.asks]
      refine asked_next (List.forall_mem_cons.mpr ⟨scoreAsked n ?_, List.forall_mem_singleton.mpr (scoreAsked m ?_)⟩)
      · exact Nat.le_max_left _ _
      · exact Nat.le_max_right _ _
  | _ kind => rw [kind] at hk; cases hk

/-- A rank is explained by the comparisons with the siblings, which are as deep as the node. -/
theorem explained_rank {name : String} {a : Adjective (TreeNode t)} (ha : F.adjective? name = some a)
    (hk : a.kind.origin = .rank) {n p : TreeNode t} (hp : n.parent? = some p) :
    Explained F s.height (.value name n) a := by
  have hrank : rank F s.height (.value name n) = 4 * (s.height - n.depth) + 5 := by rw [rank_value ha, hk]; rfl
  obtain ⟨holds, hvalue⟩ := evaluate_rank vocabulary ha hk hp
  cases vocabulary.speaks ha with
  | @rank kind comparison group c g x positive _ template hc hcomparison hg hgroup =>
    obtain ⟨members, hsub, evaluated⟩ := evaluate_siblings vocabulary hg hgroup hp
    have grouped : F.evaluateGroup group n = .ok members := Evaluation.group_eq_ok.mpr (evaluated _)
    have compared : ∀ m ∈ members, ∃ holds, F.compare comparison n m = .ok holds :=
      fun m _ => compare_ok vocabulary hc hcomparison _ n m
    -- Siblings are as deep as the node, so it is the kind of a goal that makes it smaller.
    have groupAsked : Smaller F s.height (.value name n) (.value group n) := by
      refine smaller_value hg hgroup (by decide) (fun _ => ⟨p, hp⟩) (by simp) ?_
      rw [hrank]
      show 2 < _
      omega
    have memberAsked : ∀ m ∈ members, Smaller F s.height (.value name n) (.comparison comparison n m) := by
      intro m hm
      have hdepth := TreeNode.depth_of_parent? built hp
      have hdepthm := TreeNode.depth_of_parent? built ((TreeNode.mem_children built).mp (hsub hm))
      refine ⟨⟨c, .comparison hc hcomparison n m⟩, ?_⟩
      rw [hrank]
      show 4 * max (s.height - n.depth) (s.height - m.depth) + 4 < _
      rw [hdepth, hdepthm, Nat.max_self]
      omega
    refine ⟨⟨_, verdict_value hvalue⟩, ?_, fun levels => ?_⟩
    · rw [template]
      refine .all (List.forall_mem_cons.mpr ⟨.assume x, List.forall_mem_singleton.mpr ?_⟩)
      exact .compareGroup grouped compared
    · rw [template, Template.asks, Template.asksAll, Template.asks, Template.asksAll, Template.asksAll,
        List.nil_append, List.append_nil, Template.asks]
      split
      · exact fun _ h => by cases h
      · rw [show F.evaluateGroup group (Goal.value name n).node = _ from grouped]
        refine asked_next (List.forall_mem_append.mpr ⟨fun g' hg' => ?_, List.forall_mem_map.mpr memberAsked⟩)
        split at hg'
        · exact List.mem_singleton.mp hg' ▸ groupAsked
        · cases hg'
  | _ kind => rw [kind] at hk; cases hk

theorem explained {g : Goal (TreeNode t)} {a : Adjective (TreeNode t)} (h : Answerable F g a) :
    Explained F s.height g a := by
  have ha := h.defined
  have hother := h.other
  cases g with
  | comparison name n m => exact explained_comparison vocabulary ha (beq_iff_eq.mp hother.symm) n m
  | value name n =>
    have hne : a.kind.origin ≠ .comparison := fun heq => by
      rw [Adjective.isComparison, heq] at hother
      cases hother
    cases vocabulary.speaks ha with
    | property kind getter template =>
      exact explained_assumed ⟨_, verdict_value (evaluate_property ha kind getter n)⟩ template
    | score kind => exact explained_score built vocabulary ha kind n
    | pointer kind => exact explained_pointer built vocabulary ha kind (h.above (by rw [kind]; rfl))
    | siblings kind _ template =>
      have hk : a.kind.origin = .nodesGroup := by rw [kind]; rfl
      obtain ⟨p, hp⟩ := h.below (Or.inr hk)
      obtain ⟨members, -, evaluated⟩ := evaluate_siblings vocabulary ha hk hp
      exact explained_assumed ⟨_, verdict_value (evaluated _)⟩ template
    | comparison kind => exact absurd (by rw [kind]; rfl) hne
    | rank kind =>
      have hk : a.kind.origin = .rank := by rw [kind]; rfl
      obtain ⟨p, hp⟩ := h.below (Or.inl hk)
      exact explained_rank built vocabulary ha hk hp

/-- The questions that have an answer are explained from smaller ones. -/
theorem grounds : F.Grounds (fun g => ∃ a, Answerable F g a) (rank F s.height) where
  rank_same := rank_same F s.height
  rank_pos := fun _ => two_le_rank F s.height _
  explained := by
    rintro g ⟨a, h⟩
    obtain ⟨⟨claim, hclaim⟩, runs, asks⟩ := explained built vocabulary h
    exact ⟨a, claim, h.defined, hclaim, runs, asks⟩

/-- Where no node has the label of a placeholder, no value of an adjective reads like one. -/
theorem verdict_resolved (labels : ∀ m : TreeNode t, m.label ≠ Claim.unresolvedValue) {g : Goal (TreeNode t)}
    {a : Adjective (TreeNode t)} {claim : Claim} (h : Answerable F g a) (hclaim : F.verdict a g = .ok claim) :
    claim.isUnresolved = false := by
  have ha := h.defined
  have hother := h.other
  cases g with
  | comparison name n m =>
    rw [Framework.verdict] at hclaim
    cases hv : F.compare name n m with
    | error e => rw [hv] at hclaim; cases hclaim
    | ok holds =>
      rw [hv] at hclaim
      cases hclaim
      rfl
  | value name n =>
    obtain ⟨v, hv, hreads⟩ : ∃ v, F.evaluate name n = .ok v ∧ v.toText ≠ Claim.unresolvedValue := by
      cases vocabulary.speaks ha with
      | @property holds x kind getter =>
        exact ⟨_, evaluate_property ha kind getter n, boolText_ne_unresolved _⟩
      | score kind => exact ⟨_, evaluate_score vocabulary ha kind _ n, Number.text_ne_unresolved _⟩
      | pointer kind =>
        obtain ⟨m, -, hscore⟩ := TreeNode.exists_scoreChild built (h.above (by rw [kind]; rfl))
        exact ⟨_, evaluate_pointer vocabulary ha kind hscore, labels m⟩
      | siblings kind =>
        have hk : a.kind.origin = .nodesGroup := by rw [kind]; rfl
        obtain ⟨p, hp⟩ := h.below (Or.inr hk)
        obtain ⟨members, -, evaluated⟩ := evaluate_siblings vocabulary ha hk hp
        exact ⟨_, evaluated _, Value.toText_nodes_ne_unresolved fun m _ => labels m⟩
      | comparison kind =>
        rw [Adjective.isComparison, kind] at hother
        cases hother
      | rank kind =>
        have hk : a.kind.origin = .rank := by rw [kind]; rfl
        obtain ⟨p, hp⟩ := h.below (Or.inl hk)
        obtain ⟨holds, hv⟩ := evaluate_rank vocabulary ha hk hp
        exact ⟨_, hv, boolText_ne_unresolved _⟩
    rw [verdict_value hv] at hclaim
    exact Except.ok.inj hclaim ▸ a.claim_resolved n hreads

end Questions

theorem rank_le (F : Framework (TreeNode t)) (height : Nat) (g : Goal (TreeNode t)) :
    rank F height g ≤ 4 * height + 5 := by
  have weight_le (steps : Nat) (k : OriginKind) (hle : steps ≤ height) : weight steps k ≤ 4 * height + 5 := by
    cases k <;> simp only [weight] <;> omega
  unfold rank
  split
  · exact weight_le _ _ (Nat.max_le.mpr ⟨Nat.sub_le _ _, Nat.sub_le _ _⟩)
  · split
    · exact weight_le _ _ (Nat.sub_le _ _)
    · omega

/-- Whatever the tree, both frameworks explain each of their adjectives on each of its nodes without a failure, if
ranks and siblings are asked about below the root and the child that is propagated back above the leaves. Where no
node is labelled as a placeholder, a depth in proportion to the height of the tree leaves nothing open. -/
theorem explain_clear {s : TreeSpec} (built : GameTree.ofSpec s = .ok t) {F : Framework (TreeNode t)}
    (ready : F = lowlevel ∨ F = highlevel) (settings : Settings) {n : TreeNode t} {a : Adjective (TreeNode t)}
    (ha : a ∈ F.adjectives) {other : Option (TreeNode t)} (hother : other.isSome = a.isComparison)
    (hroot : t.root? = some n → a.kind.origin ≠ .rank ∧ a.kind.origin ≠ .nodesGroup)
    (hleaf : n.isLeaf = true → a.kind.origin ≠ .pointer) :
    ∃ x, F.explain settings n a.name other = .ok x ∧ x.proof.failureCount = 0 ∧
      ((∀ m : TreeNode t, m.label ≠ "?") → 4 * s.height + 6 ≤ settings.explanationDepth →
        ∀ c ∈ x.proof.claims, c.isUnresolved = false) := by
  have vocabulary : Vocabulary F := by
    rcases ready with rfl | rfl
    · exact lowlevel_vocabulary
    · exact highlevel_vocabulary
  have hdefined := (vocabulary a ha).1
  -- Ranks and siblings are asked about where there is a parent, and the pointer where there is a child.
  obtain ⟨goal, hgoal, answerable⟩ : ∃ goal, a.goal n other = .ok goal ∧ Answerable F goal a := by
    unfold Adjective.goal
    cases other with
    | some m =>
      rw [← hother]
      exact ⟨_, rfl, .comparison hdefined (beq_iff_eq.mp hother.symm) n m⟩
    | none =>
      rw [← hother]
      refine ⟨_, rfl, .value hdefined (beq_eq_false_iff_ne.mp hother.symm) (fun hk => ?_) fun hk => ?_⟩
      · refine TreeNode.exists_parent built fun hplace => ?_
        have hne := hroot (TreeNode.node?_eq_some.mpr hplace)
        exact hk.elim hne.1 hne.2
      · cases hn : n.isLeaf with
        | false => rfl
        | true => exact absurd hk (hleaf hn)
  refine ⟨_, Framework.explain_eq_ok.mpr ⟨a, goal, hdefined, hgoal, rfl⟩, ?_, fun labels hdepth => ?_⟩
  · exact (grounds built vocabulary).failureCount settings ⟨a, answerable⟩
  · refine (grounds built vocabulary).resolved settings ⟨a, answerable⟩ ?_ ?_
    · rintro g b claim ⟨b', hb'⟩ hb hclaim
      cases hb'.defined.symm.trans hb
      exact verdict_resolved built vocabulary labels hb' hclaim
    · exact Nat.le_trans (rank_le F s.height goal) (by omega)

theorem explain_clear_move :
    ∃ t, GameTree.ofSpec ⟨"now", none, [⟨"then", some (Number.zero false), []⟩]⟩ = .ok t ∧
      ∃ (n : TreeNode t) (x : Argument), t.root? = some n ∧
        lowlevel.explain { explanationDepth := 10 } n "score" = .ok x ∧ x.proof.failureCount = 0 ∧
        ∀ c ∈ x.proof.claims, c.isUnresolved = false := by
  refine ⟨_, rfl, ⟨⟨0, by decide⟩⟩, ?_⟩
  obtain ⟨a, ha, hname, hkind⟩ : ∃ a ∈ (lowlevel (t := ⟨_⟩)).adjectives, a.name = "score" ∧ a.kind = .quantitative :=
    ⟨_, List.mem_cons_of_mem _ List.mem_cons_self, rfl, rfl⟩
  have unary {N : Type} : (none : Option N).isSome = a.isComparison := by
    rw [Adjective.isComparison, hkind]
    rfl
  obtain ⟨x, answered, clear, resolved⟩ := explain_clear
    (s := ⟨"now", none, [⟨"then", some (Number.zero false), []⟩]⟩) rfl (Or.inl rfl) { explanationDepth := 10 }
    (n := ⟨⟨0, by decide⟩⟩) ha unary (fun _ => by rw [hkind]; decide) (fun _ => by rw [hkind]; decide)
  refine ⟨x, rfl, hname ▸ answered, clear, resolved ?_ (by decide)⟩
  rintro ⟨i⟩
  revert i
  decide +kernel

end Minimax

end Rationale
