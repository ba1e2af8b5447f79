import Rationale.Proofs.Nodes
import Rationale.Proofs.Results

/-!
What puts the failures and the group comparisons into an explanation. A template can do so by one of its references
only, and asks for goals by its references only; a goal itself fails where its adjective is unknown, where it closes a
circle or where it has no verdict. An invariant of the goals that are asked for and of the nodes that are put there
holds throughout, which is proved here once for all such invariants.
-/

namespace Rationale

variable {N : Type} [Node N]

/-- A goal that references ask for: a comparison by what they use as one, a value by anything else. -/
inductive Goal.IsAsked (refs : List (String × Role)) : Goal N → Prop
  | value {name : String} {role : Role} {node : N} (h : (name, role) ∈ refs) (used : role ≠ .comparison) :
      Goal.IsAsked refs (.value name node)
  | comparison {name : String} {node other : N} (h : (name, .comparison) ∈ refs) :
      Goal.IsAsked refs (.comparison name node other)

/-- A branch that needs a second node where there is one only. -/
def Proof.unpaired (adjective : String) : Proof :=
  .failure ("\"" ++ adjective ++ "\" can only be compared between two nodes")

/-- The failures and group comparisons that a template with such references may put at a site. -/
inductive Site.Puts (s : Site N) (refs : List (String × Role)) : Proof → Prop
  | unknown {name : String} {role : Role} (h : (name, role) ∈ refs) (used : role ≠ .comparison)
      (undefined : s.framework.adjective? name = none) : s.Puts refs (.unknownAdjective name)
  | undecided {name : String} {role : Role} {node : N} {e : EvaluationError} (h : (name, role) ∈ refs)
      (used : role ≠ .comparison) (fails : s.framework.evaluate name node = .error e) :
      s.Puts refs (.cannotEvaluate name node e)
  | ungrouped {group : String} {e : EvaluationError} (h : (group, .nodesGroup) ∈ refs)
      (fails : s.framework.evaluateGroup group s.node = .error e) : s.Puts refs (.cannotEvaluate group s.node e)
  | nowhere {pointer : String} {node : N} {v : Value N} (h : (pointer, .pointer) ∈ refs)
      (evaluated : s.framework.evaluate pointer node = .ok v) :
      s.Puts refs (.failure (Node.label node ++ " has no " ++ pointer))
  | again {pointer : String} {node : N} (h : (pointer, .pointer) ∈ refs) :
      s.Puts refs (.failure ("circular explanation: " ++ Node.label node ++ " is reached again through " ++ pointer))
  | unpaired {adjective : String} (h : (adjective, .quantitative) ∈ refs) (alone : s.goal.other? = none) :
      s.Puts refs (.unpaired adjective)
  | group {comparison group : String} {positive : Bool} {members : List N} {membership : Option Proof}
      {proof : N → Proof} (hcomparison : (comparison, .comparison) ∈ refs) (hgroup : (group, .nodesGroup) ∈ refs)
      (evaluated : s.framework.evaluateGroup group s.node = .ok members) :
      s.Puts refs (.group
        (s.groupConclusion comparison group positive (members.map (s.framework.compare comparison s.node))) membership
        (members.map fun m => ⟨[Node.label m], s.relevance comparison m, proof m⟩) 0 (s.level + 1)
        ⟨comparison, .comparison⟩)

theorem Site.puts_follow {s : Site N} {refs : List (String × Role)} {node : N} {pointer : String} {p : Proof}
    (hr : (pointer, .pointer) ∈ refs) (h : s.framework.follow node pointer = .error p) : s.Puts refs p := by
  unfold Framework.follow at h
  split at h
  · cases h
  · rename_i v _ hv
    cases h
    exact .nowhere hr hv
  · rename_i e he
    cases h
    exact .undecided hr (by decide) he

theorem Site.puts_lead {s : Site N} {refs : List (String × Role)} {via : Option String} {forwardPointer : Bool}
    {p : Proof} (hr : Template.viaReference via ⊆ refs) (h : s.framework.lead s.goal via forwardPointer = .error p) :
    s.Puts refs p := by
  unfold Framework.lead at h
  cases via with
  | none => cases h
  | some pointer => exact puts_follow (hr (List.mem_singleton_self _)) (map_eq_error.mp h)

theorem Framework.lead_asked {F : Framework N} {goal : Goal N} {refs : List (String × Role)} {via : Option String}
    {forwardPointer : Bool} {asked : List (Goal N)} {node : N} (hr : Template.viaReference via ⊆ refs)
    (h : F.lead goal via forwardPointer = .ok (asked, node)) : ∀ g ∈ asked, g.IsAsked refs := by
  unfold Framework.lead at h
  cases via with
  | none =>
    cases h
    exact fun _ hg => by cases hg
  | some pointer =>
    cases hf : F.follow goal.node pointer with
    | error q => simp [hf, Except.map] at h
    | ok target =>
      simp only [hf, Except.map, Except.ok.injEq, Prod.mk.injEq] at h
      rw [← h.1]
      intro g hg
      split at hg
      · rw [List.mem_singleton.mp hg]
        exact .value (hr (List.mem_singleton_self _)) (by decide)
      · cases hg

theorem Framework.Walks.undecided_of {F : Framework N} {pointer goal : String} {levels : Nat} {visited : List N}
    {node : N} {hops : List (N × N)} {ending : WalkEnd N} (h : F.Walks pointer goal levels visited node hops ending)
    {p : Proof} (hp : ending = .undecided p) :
    ∃ last e, F.evaluate goal last = .error e ∧ p = .cannotEvaluate goal last e := by
  induction h with
  | undecided fails =>
    cases hp
    exact ⟨_, _, fails, rfl⟩
  | hop decided goesOn followed unseen rest ih => exact ih hp
  | _ => cases hp

theorem Framework.Walks.lost_of {F : Framework N} {pointer goal : String} {levels : Nat} {visited : List N}
    {node : N} {hops : List (N × N)} {ending : WalkEnd N} (h : F.Walks pointer goal levels visited node hops ending)
    {p : Proof} (hp : ending = .lost p) : ∃ last, F.follow last pointer = .error p := by
  induction h with
  | lost decided goesOn stuck =>
    cases hp
    exact ⟨_, stuck⟩
  | hop decided goesOn followed unseen rest ih => exact ih hp
  | _ => cases hp

/-! ### Templates and explanations -/

section Fill
variable {s : Site N} {P : Proof → Prop} {refs : List (String × Role)}
  (plain : ∀ p : Proof, p.isPlain = true → P p) (puts : ∀ p, s.Puts refs p → P p)
  (below : ∀ k g, g.IsAsked refs → (s.below k g).Every P) (beyond : ∀ g, g.IsAsked refs → (s.beyond g).Every P)

include puts

theorem Site.every_failure {p : Proof} (h : s.Puts refs p) (failure : ∃ t, p = .failure t) : p.Every P := by
  obtain ⟨t, rfl⟩ := failure
  exact Proof.every_leaf (puts _ h) rfl

include plain beyond in
theorem Site.every_statement {adjective : String} (hr : (adjective, .any) ∈ refs) (node : N) :
    (s.statement adjective node).Every P := by
  unfold Site.statement
  split
  · exact beyond _ (.value hr (by decide))
  · split
    · rename_i undefined
      exact s.every_failure puts (.unknown hr (by decide) undefined) ⟨_, rfl⟩
    · split
      · exact Proof.every_leaf (plain _ rfl) rfl
      · rename_i e he
        exact s.every_failure puts (.undecided hr (by decide) he) (Proof.cannotEvaluate_eq _ _ _)

include below beyond

theorem Site.every_groupComparison {comparison group : String} (positive : Bool)
    (hcomparison : (comparison, .comparison) ∈ refs) (hgroup : (group, .nodesGroup) ∈ refs) :
    (s.groupComparison comparison group positive).Every P := by
  have asked (node : N) : (Goal.value group node).IsAsked refs := .value hgroup (by decide)
  unfold Site.groupComparison
  split
  · exact beyond _ (asked _)
  · split
    · rename_i e he
      exact s.every_failure puts (.ungrouped hgroup he) (Proof.cannotEvaluate_eq _ _ _)
    · rename_i members hmembers
      refine Proof.every_iff.mpr ⟨puts _ (.group hcomparison hgroup hmembers), fun q hq => ?_⟩
      rcases List.mem_append.mp hq with hq | hq
      · split at hq
        · rw [Option.toList_some, List.mem_singleton] at hq
          exact hq ▸ below 0 _ (asked _)
        · cases hq
      · rw [List.map_map] at hq
        obtain ⟨m, -, rfl⟩ := List.mem_map.mp hq
        exact below 0 _ (.comparison hcomparison)

include plain

theorem Site.every_possession {adjective : String} {via : Option String} (explainFurther forwardPointer : Bool)
    (hr : (adjective, .any) ∈ refs) (hvia : Template.viaReference via ⊆ refs) :
    (s.possession adjective via explainFurther forwardPointer).Every P := by
  unfold Site.possession
  cases h : s.framework.lead s.goal via forwardPointer with
  | error failure =>
    rw [Site.target_of_error h]
    exact s.every_failure puts (s.puts_lead hvia h) (Framework.lead_error h)
  | ok lead =>
    rw [Site.target_of_ok h]
    refine Proof.every_all (fun _ => plain _ rfl) (List.forall_mem_append.mpr ⟨List.forall_mem_map.mpr fun g hg => ?_, ?_⟩)
    · exact below 0 g (Framework.lead_asked hvia h g hg)
    · refine List.forall_mem_singleton.mpr ?_
      split
      · exact below 0 _ (.value hr (by decide))
      · exact s.every_statement plain puts beyond hr _

theorem Site.every_recursivePossession {pointer adjective goal : String} (hpointer : (pointer, .pointer) ∈ refs)
    (hadjective : (adjective, .any) ∈ refs) (hgoal : (goal, .boolean) ∈ refs) :
    (s.recursivePossession pointer adjective goal).Every P := by
  have walks := s.framework.walk_walks pointer goal s.levelsBelow [s.node] s.node
  unfold Site.recursivePossession
  generalize s.framework.walk pointer goal s.levelsBelow [s.node] s.node = walk at walks ⊢
  obtain ⟨hops, ending⟩ := walk
  dsimp only at walks ⊢
  have said {p : Proof} (h : p.Every P) : ∀ q ∈ hops.map (Framework.hopClaim pointer) ++ [p], q.Every P := by
    refine List.forall_mem_append.mpr ⟨List.forall_mem_map.mpr fun hop _ => ?_, List.forall_mem_singleton.mpr h⟩
    exact Proof.every_leaf (plain _ rfl) rfl
  cases ending with
  | arrived node => exact Proof.every_all (fun _ => plain _ rfl) (said (below _ _ (.value hadjective (by decide))))
  | exhausted node => exact Proof.every_all (fun _ => plain _ rfl) (said (beyond _ (.value hpointer (by decide))))
  | lost failure =>
    obtain ⟨last, hlast⟩ := walks.lost_of rfl
    refine Proof.every_all (fun _ => plain _ rfl) (said ?_)
    exact s.every_failure puts (s.puts_follow hpointer hlast) (Framework.follow_error hlast)
  | undecided failure =>
    obtain ⟨last, e, he, rfl⟩ := walks.undecided_of rfl
    refine Proof.every_plain plain rfl (said ?_)
    exact s.every_failure puts (.undecided hgoal (by decide) he) (Proof.cannotEvaluate_eq _ _ _)
  | circular node => exact Proof.every_plain plain rfl (said (s.every_failure puts (.again hpointer) ⟨_, rfl⟩))

/-- Every node of a filled in template has a property that plain nodes have, what the template puts there, and what it
asks for. -/
theorem Template.every_fill {t : Template} (hrefs : t.references ⊆ refs) : ∀ p ∈ t.fill s, p.Every P := by
  -- A node of a premise is put there by the site, or comes from below it, or only holds others together.
  induction t with
  | assume a =>
    rw [Template.fill]
    intro p hp
    rcases s.assumption_eq a with h | ⟨text, h⟩
    · rw [h] at hp
      cases hp
    · rw [h] at hp
      cases hp
      exact Proof.every_leaf (plain _ rfl) rfl
  | possess adjective via explainFurther forwardPointer =>
    obtain ⟨hr, hvia⟩ := List.cons_subset.mp hrefs
    rintro p ⟨⟩
    exact s.every_possession plain puts below beyond _ _ hr hvia
  | compare comparison pointer =>
    obtain ⟨hcomparison, hpointer⟩ := List.cons_subset.mp hrefs
    rw [Template.fill]
    split
    · rename_i failure h
      rintro p ⟨⟩
      exact s.every_failure puts (s.puts_follow (hpointer (List.mem_singleton_self _)) h) (Framework.follow_error h)
    · rintro p ⟨⟩
      exact below _ _ (.comparison hcomparison)
  | compareGroup comparison group positive =>
    obtain ⟨hcomparison, hgroup⟩ := List.cons_subset.mp hrefs
    rintro p ⟨⟩
    exact s.every_groupComparison puts below beyond _ hcomparison (hgroup (List.mem_singleton_self _))
  | compared adjective =>
    have hr : (adjective, .quantitative) ∈ refs := hrefs (List.mem_singleton_self _)
    have asked (node : N) : (s.explain adjective node).Every P := below 0 _ (.value hr (by decide))
    rw [Template.fill]
    split
    · rename_i alone
      rintro p ⟨⟩
      exact s.every_failure puts (.unpaired hr alone) ⟨_, rfl⟩
    · refine Proof.every_all? (fun _ => plain _ rfl) (List.forall_mem_cons.mpr ⟨asked _, List.forall_mem_singleton.mpr (asked _)⟩)
  | all items ih =>
    rw [Template.references, Template.referencesOfAll_eq] at hrefs
    rw [Template.fill, Template.fillAll_eq]
    refine Proof.every_all? (fun _ => plain _ rfl) fun p hp => ?_
    obtain ⟨t, ht, hfill⟩ := List.mem_filterMap.mp hp
    exact ih t ht (fun r hr => hrefs (List.mem_flatMap.mpr ⟨t, ht, hr⟩)) p hfill
  | branch c ifTrue ifFalse ihTrue ihFalse =>
    rw [Template.references] at hrefs
    obtain ⟨hhead, hfalse⟩ := List.append_subset.mp hrefs
    obtain ⟨hhead, htrue⟩ := List.append_subset.mp hhead
    obtain ⟨hr, hvia⟩ := List.cons_subset.mp hhead
    rw [Template.fill]
    cases h : s.framework.lead s.goal c.via true with
    | error failure =>
      rw [Site.target_of_error h]
      rintro p ⟨⟩
      exact s.every_failure puts (s.puts_lead hvia h) (Framework.lead_error h)
    | ok lead =>
      rw [Site.target_of_ok h]
      dsimp only
      split
      · rename_i e he
        rintro p ⟨⟩
        exact s.every_failure puts (.undecided hr (by decide) he) (Proof.cannotEvaluate_eq _ _ _)
      · rintro p ⟨⟩
        refine Proof.every_plain plain rfl (List.forall_mem_cons.mpr ⟨?_, fun q hq => ?_⟩)
        · refine Proof.every_all (fun _ => plain _ rfl) (List.forall_mem_append.mpr ⟨List.forall_mem_map.mpr fun g hg => ?_, ?_⟩)
          · exact below 0 g (Framework.lead_asked hvia h g hg)
          · exact List.forall_mem_singleton.mpr (below 0 _ (.value hr (by decide)))
        · rw [Option.mem_toList] at hq
          split at hq
          · exact ihTrue htrue q hq
          · exact ihFalse hfalse q hq
  | recurse pointer adjective goal =>
    obtain ⟨hpointer, hrest⟩ := List.cons_subset.mp hrefs
    obtain ⟨hadjective, hgoal⟩ := List.cons_subset.mp hrest
    rintro p ⟨⟩
    exact s.every_recursivePossession plain puts below beyond hpointer hadjective (hgoal (List.mem_singleton_self _))

end Fill

/-- The failures and group comparisons in explanations of certain goals. -/
inductive Framework.Puts (F : Framework N) (G : Goal N → Prop) : Proof → Prop
  | unknown {goal : Goal N} (hG : G goal) (undefined : F.adjective? goal.adjective = none) :
      F.Puts G (.unknownAdjective goal.adjective)
  | circular {goal : Goal N} (hG : G goal) : F.Puts G (.circular goal)
  | undecided {goal : Goal N} {a : Adjective N} {e : EvaluationError} (hG : G goal)
      (defined : F.adjective? goal.adjective = some a) (fails : F.verdict a goal = .error e) :
      F.Puts G (.cannotEvaluate goal.adjective goal.node e)
  | site {s : Site N} {a : Adjective N} {p : Proof} (hF : s.framework = F) (hG : G s.goal)
      (defined : F.adjective? s.goal.adjective = some a) (h : s.Puts a.template.references p) : F.Puts G p

/-- An invariant of explanations: goals of a kind only ask for such goals, what they put into a proof has the property,
and the tactics of adjectives keep it. -/
structure Framework.Sustains (F : Framework N) (G : Goal N → Prop) (P : Proof → Prop) : Prop where
  plain : ∀ p : Proof, p.isPlain = true → P p
  puts : ∀ p, F.Puts G p → P p
  asks : ∀ {goal a}, G goal → F.adjective? goal.adjective = some a → ∀ g, g.IsAsked a.template.references → G g
  tactics : ∀ a ∈ F.adjectives, ∀ p : Proof, p.Every P → (Tactic.applyAll a.tactics p).Every P

namespace Framework.Sustains

variable {F : Framework N} {G : Goal N → Prop} {P : Proof → Prop} (h : F.Sustains G P)

include h

theorem expand (settings : Settings) {beyond : Goal N → Proof} (hbeyond : ∀ g, G g → (beyond g).Every P)
    (levels skipped level : Nat) (path : List (Goal N)) {goal : Goal N} (hG : G goal) :
    (F.expand settings beyond levels skipped level path goal).Every P := by
  induction levels generalizing skipped level path goal with
  | zero =>
    rw [Framework.expand]
    exact hbeyond goal hG
  | succ levels ih =>
    cases skipped with
    | succ skipped =>
      rw [Framework.expand]
      exact ih _ _ _ hG
    | zero =>
      rw [Framework.expand]
      refine expandGoal_cases ?unknown ?circular ?undecided ?explained
      case unknown =>
        intro undefined
        exact Proof.every_leaf (h.puts _ (.unknown hG undefined)) rfl
      case circular =>
        intro a ha cut
        exact Proof.every_leaf (h.puts _ (.circular hG)) rfl
      case undecided =>
        intro a e ha he
        have hput := h.puts _ (.undecided hG ha he)
        obtain ⟨text, htext⟩ := Proof.cannotEvaluate_eq goal.adjective goal.node e
        rw [htext] at hput ⊢
        exact Proof.every_leaf hput rfl
      case explained =>
        intro a c ha uncut hc
        refine h.tactics a (adjective?_mem ha) _ (Proof.every_because h.plain ?_ _ _ _)
        have asked := h.asks hG ha
        refine Template.every_fill h.plain (fun p hp => h.puts p (.site rfl hG ha hp)) (fun k g hg => ?_)
          (fun g hg => hbeyond g (asked g hg)) (List.Subset.refl _)
        exact ih _ _ _ (asked g hg)

/-- What holds throughout the expansion and becomes another property under the tactics of the framework holds
throughout the explanation. -/
theorem explanation {Q : Proof → Prop} (plain : ∀ p : Proof, p.isPlain = true → Q p) (blind : Proof.Blind Q)
    (tactics : ∀ p : Proof, p.Every P → (Tactic.applyAll F.tactics p).Every Q) (settings : Settings) {goal : Goal N}
    (hG : G goal) : (F.explanation settings goal).Every Q := by
  refine Proof.Every.transformUp blind (fun _ => Proof.every_normalStep (.of_plain plain)) (tactics _ ?_)
  exact h.expand settings (fun g _ => Proof.every_leaf (h.plain _ rfl) rfl) _ _ _ _ hG

end Framework.Sustains

end Rationale
