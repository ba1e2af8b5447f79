import Rationale.Proofs.Filling

/-!
Deeper explanations refine. Without tactics, what an explanation says at some depth it says at every greater
depth too, in the same order: only placeholders give way to what a deeper explanation says instead. The cut of
cycles does not interfere, because it looks at the goals above and not at the levels left.
-/

namespace Rationale

open List

/-- The second sequence says what the first says, in its order, and anything in place of its placeholders. -/
inductive Entry.Refines : List Entry → List Entry → Prop
  | nil : Refines [] []
  | keep {es es' : List Entry} (e : Entry) (rest : Refines es es') : Refines (e :: es) (e :: es')
  | resolve {es es' : List Entry} {e : Entry} (more : List Entry) (unresolved : e.isUnresolved = true)
      (rest : Refines es es') : Refines (e :: es) (more ++ es')

/-- What a sequence says besides placeholders. -/
def Entry.resolved (es : List Entry) : List Entry := es.filter (!·.isUnresolved)

namespace Entry.Refines

theorem refl : ∀ es : List Entry, Refines es es
  | [] => .nil
  | e :: es => .keep e (refl es)

theorem append {es₁ es₁' es₂ es₂' : List Entry} (h₁ : Refines es₁ es₁') (h₂ : Refines es₂ es₂') :
    Refines (es₁ ++ es₂) (es₁' ++ es₂') := by
  induction h₁ with
  | nil => exact h₂
  | keep e rest ih => exact .keep e ih
  | resolve more unresolved rest ih =>
    rw [List.append_assoc]
    exact .resolve more unresolved ih

theorem flatMap {α : Type} {f g : α → List Entry} :
    ∀ {l : List α}, (∀ a ∈ l, Refines (f a) (g a)) → Refines (l.flatMap f) (l.flatMap g)
  | [], _ => .nil
  | a :: l, h => by
    rw [flatMap_cons, flatMap_cons]
    exact append (h a mem_cons_self) (flatMap fun b hb => h b (mem_cons_of_mem a hb))

/-- Anything refines a placeholder. -/
theorem of_placeholder {p : Proof} {c : Claim} (hp : p = .claim c) (hc : c.isUnresolved = true)
    (es : List Entry) : Refines p.entries es := by
  have h := Refines.resolve (e := .claim c) es hc .nil
  rw [List.append_nil] at h
  rw [hp]
  exact h

theorem all {items items' : List Proof} (h : Refines (items.flatMap Proof.entries) (items'.flatMap Proof.entries)) :
    Refines (Proof.all items).entries (Proof.all items').entries := by
  rw [Proof.entries_all, Proof.entries_all]
  exact h

/-- What is resolved stays, in its order. -/
theorem resolved_sublist {es es' : List Entry} (h : Refines es es') : Entry.resolved es <+ Entry.resolved es' := by
  unfold Entry.resolved
  induction h with
  | nil => exact Sublist.refl _
  | keep e rest ih =>
    cases hu : e.isUnresolved
    · rw [filter_cons_of_pos (by rw [hu]; rfl), filter_cons_of_pos (by rw [hu]; rfl)]
      exact ih.cons_cons e
    · rw [filter_cons_of_neg (by rw [hu]; decide), filter_cons_of_neg (by rw [hu]; decide)]
      exact ih
  | resolve more unresolved rest ih =>
    rw [filter_cons_of_neg (by rw [unresolved]; decide), filter_append]
    exact ih.trans (sublist_append_right _ _)

end Entry.Refines

variable {N : Type} [Node N]

open Entry (Refines)

/-! ### Filled templates and expansions -/

section Fill
variable {s : Site N} {levels : Nat} {below : Below N} {beyond : Goal N → Proof}
  (hlevels : s.levelsBelow ≤ levels) (hbelow : ∀ k g, Refines (s.below k g).entries (below k g).entries)
  (hbeyond : ∀ g, ∃ c, s.beyond g = .claim c ∧ c.isUnresolved = true)

omit [Node N] in
include hbeyond in
theorem Site.refines_beyond (g : Goal N) (es : List Entry) : Refines (s.beyond g).entries es := by
  obtain ⟨c, hc, unresolved⟩ := hbeyond g
  exact .of_placeholder hc unresolved es

include hlevels hbeyond

theorem Site.refines_statement (adjective : String) (node : N) :
    Refines (s.statement adjective node).entries
      ((s.over levels below beyond).statement adjective node).entries := by
  unfold Site.statement
  by_cases hz : s.levelsBelow = 0
  · rw [if_pos hz]
    exact Site.refines_beyond hbeyond _ _
  · have hz' : levels ≠ 0 := fun h => hz (Nat.eq_zero_of_le_zero (h ▸ hlevels))
    rw [if_neg hz, over_levelsBelow, if_neg hz']
    exact .refl _

include hbelow

theorem Site.refines_groupComparison (comparison group : String) (positive : Bool) :
    Refines (s.groupComparison comparison group positive).entries
      ((s.over levels below beyond).groupComparison comparison group positive).entries := by
  unfold Site.groupComparison
  by_cases hz : s.levelsBelow = 0
  · rw [if_pos hz]
    exact Site.refines_beyond hbeyond _ _
  · have hz' : levels ≠ 0 := fun h => hz (Nat.eq_zero_of_le_zero (h ▸ hlevels))
    rw [if_neg hz, over_levelsBelow, if_neg hz', over_framework, over_node]
    split
    · exact .refl _
    · rw [Proof.entries_group, Proof.entries_group, flatMap_map, flatMap_map, over_owner, over_explain]
      refine .append (.append ?_ (.flatMap fun m _ => hbelow _ _)) (.refl _)
      split
      · exact hbelow _ _
      · exact .nil

theorem Site.refines_recursivePossession (pointer adjective goal : String) :
    Refines (s.recursivePossession pointer adjective goal).entries
      ((s.over levels below beyond).recursivePossession pointer adjective goal).entries := by
  have walks := s.framework.walk_walks pointer goal s.levelsBelow [s.node] s.node
  rw [Site.entries_recursivePossession walks]
  rcases walks.deepen hlevels with walks' | ⟨last, more, ending', hend, walks'⟩
  · rw [Site.entries_recursivePossession (s := s.over levels below beyond) walks']
    refine .append (.refl _) ?_
    cases (s.framework.walk pointer goal s.levelsBelow [s.node] s.node).2 with
    | arrived node => exact hbelow _ _
    | exhausted node => exact Site.refines_beyond hbeyond _ _
    | _ => exact .refl _
  · -- The walk goes on from where its levels ended, and its placeholder gives way to the rest of it.
    rw [Site.entries_recursivePossession (s := s.over levels below beyond) walks', hend, flatMap_append,
      append_assoc]
    exact .append (.refl _) (Site.refines_beyond hbeyond _ _)

theorem Site.refines_over :
    s.Related (fun p p' => Refines (Proof.entries? p) (Proof.entries? p')) (s.over levels below beyond) where
  framework := rfl
  goal := rfl
  failure _ := .refl _
  assumption _ := .refl _
  asked := hbelow 0
  statement := Site.refines_statement hlevels hbeyond
  groupComparison := Site.refines_groupComparison hlevels hbelow hbeyond
  recursivePossession := Site.refines_recursivePossession hlevels hbelow hbeyond
  following asked {p p'} h := by
    refine .all ?_
    rw [flatMap_append, flatMap_append, flatMap_map, flatMap_map, flatMap_singleton, flatMap_singleton]
    exact .append (.flatMap fun g _ => hbelow 0 g) h
  all? rows h := by
    rw [Proof.entries?_all?, Proof.entries?_all?, flatMap_filterMap, flatMap_filterMap]
    simp only [← Proof.entries?_eq]
    exact .flatMap h
  conditional hc hb := by
    rw [Proof.entries?_some, Proof.entries?_some] at hc ⊢
    rw [Proof.entries_conditional, Proof.entries_conditional]
    exact .append hc hb

end Fill

/-- Nothing reshapes the explanations of the framework. -/
structure Framework.Untouched (F : Framework N) : Prop where
  framework : F.tactics = []
  adjectives : ∀ a ∈ F.adjectives, a.tactics = []

theorem Framework.refines_expand {F : Framework N} (untouched : F.Untouched) (settings : Settings)
    {levels levels' : Nat} (hle : levels ≤ levels') (skipped level : Nat) (path : List (Goal N)) (goal : Goal N) :
    Refines (F.expand settings Goal.unresolved levels skipped level path goal).entries
      (F.expand settings Goal.unresolved levels' skipped level path goal).entries := by
  induction levels generalizing levels' skipped level path goal with
  | zero =>
    rw [expand]
    exact .of_placeholder rfl rfl _
  | succ levels ih =>
    obtain ⟨levels', rfl⟩ : ∃ n, levels' = n + 1 := ⟨levels' - 1, by omega⟩
    have hle := Nat.le_of_succ_le_succ hle
    cases skipped with
    | succ skipped =>
      rw [expand, expand]
      exact ih hle _ _ _ _
    | zero =>
      rw [expand, expand]
      refine expandGoal_related (R := fun p p' => Refines p.entries p'.entries) (fun _ => .refl _)
        (fun _ _ _ => .refl _) (fun _ _ _ _ => .refl _) fun a c ha _ _ => ?_
      rw [untouched.adjectives a (adjective?_mem ha)]
      change Refines (Proof.because _ _ _ _).entries (Proof.because _ _ _ _).entries
      rw [Proof.entries_because, Proof.entries_because]
      refine .append ?_ (.refl _)
      exact Template.fill_related (Site.refines_over hle (fun k g => ih hle k _ _ g) fun g => ⟨_, rfl, rfl⟩) _

theorem Framework.refines_explanation {F : Framework N} (untouched : F.Untouched) (settings : Settings)
    {d d' : Nat} (hle : d ≤ d') (goal : Goal N) :
    Refines (F.explanation { settings with explanationDepth := d } goal).entries
      (F.explanation { settings with explanationDepth := d' } goal).entries := by
  unfold Framework.explanation
  rw [Proof.entries_normalize, Proof.entries_normalize, untouched.framework,
    F.expand_explanationDepth settings _ d, F.expand_explanationDepth settings _ d']
  exact F.refines_expand untouched settings hle 0 1 [] goal

/-- Where there is an answer at some depth, there is one at every greater depth. It says what the first one
says, in the same order, with more in place of placeholders; so what is resolved at the one depth is resolved
at the other. -/
theorem Framework.explain_refines {F : Framework N} (untouched : F.Untouched) (settings : Settings) {d d' : Nat}
    (hle : d ≤ d') {node : N} {adjective : String} {other : Option N} {x : Argument}
    (answered : F.explain { settings with explanationDepth := d } node adjective other = .ok x) :
    ∃ x', F.explain { settings with explanationDepth := d' } node adjective other = .ok x' ∧
      Refines x.proof.entries x'.proof.entries ∧
      Entry.resolved x.proof.entries <+ Entry.resolved x'.proof.entries := by
  obtain ⟨a, goal, ha, hgoal, rfl⟩ := Framework.explain_eq_ok.mp answered
  have refines := F.refines_explanation untouched settings hle goal
  exact ⟨_, Framework.explain_eq_ok.mpr ⟨a, goal, ha, hgoal, rfl⟩, refines, refines.resolved_sublist⟩

theorem Coin.untouched : Coin.framework.Untouched where
  framework := rfl
  adjectives := by simp [Coin.framework]

theorem Coin.explain_refines_shallow :
    ∃ x x', Coin.framework.explain { explanationDepth := 1 } .heads "reverse" = .ok x ∧
      Coin.framework.explain { explanationDepth := 2 } .heads "reverse" = .ok x' ∧
      Entry.Refines x.proof.entries x'.proof.entries ∧
      Entry.resolved x.proof.entries <+ Entry.resolved x'.proof.entries := by
  obtain ⟨x, answered⟩ : ∃ x, Coin.framework.explain { explanationDepth := 1 } .heads "reverse" = .ok x := ⟨_, rfl⟩
  obtain ⟨x', answered', refines⟩ := Framework.explain_refines Coin.untouched {} (Nat.le_succ 1) answered
  exact ⟨x, x', answered, answered', refines⟩

end Rationale
