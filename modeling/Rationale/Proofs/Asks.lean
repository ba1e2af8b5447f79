import Rationale.Proofs.Filling

/-!
What a template asks for. At a site, a template looks at the proofs of certain goals below and at nothing else;
these goals are found without expanding anything.
-/

namespace Rationale

variable {N : Type} [Node N]

/-- A goal asked for from a site, and how many levels are skipped for it. -/
abbrev Ask (N : Type) := Nat × Goal N

/-- The goals on the next level. -/
def Goal.asked {N : Type} (goals : List (Goal N)) : List (Ask N) := goals.map (0, ·)

mutual

/-- The goals a template asks for, with `levels` levels below it. -/
def Template.asks (F : Framework N) (goal : Goal N) (levels : Nat) : Template → List (Ask N)
  | .assume _ => []
  | .possess adjective via explainFurther forwardPointer =>
    match F.lead goal via forwardPointer with
    | .error _ => []
    | .ok (pointed, node) => Goal.asked (pointed ++ if explainFurther then [.value adjective node] else [])
  | .compare comparison pointer =>
    match F.follow goal.node pointer with
    | .error _ => []
    | .ok target => Goal.asked [.comparison comparison goal.node target]
  | .compareGroup comparison group _ =>
    if levels = 0 then []
    else match F.evaluateGroup group goal.node with
      | .error _ => []
      | .ok members => Goal.asked ((if goal.adjective ≠ group then [.value group goal.node] else [])
          ++ members.map (.comparison comparison goal.node))
  | .compared adjective =>
    match goal.other? with
    | none => []
    | some other => Goal.asked [.value adjective goal.node, .value adjective other]
  | .all items => Template.asksAll F goal levels items
  | .branch c ifTrue ifFalse =>
    match F.lead goal c.via true with
    | .error _ => []
    | .ok (pointed, subject) =>
      match F.evaluate c.adjective subject with
      | .error _ => []
      | .ok value => Goal.asked (pointed ++ [.value c.adjective subject])
          ++ if value.isLiteral c.expected then Template.asks F goal levels ifTrue
            else Template.asks F goal levels ifFalse
  | .recurse pointer adjective reached =>
    match F.walk pointer reached levels [goal.node] goal.node with
    | (hops, .arrived node) => [(hops.length, .value adjective node)]
    | _ => []

def Template.asksAll (F : Framework N) (goal : Goal N) (levels : Nat) : List Template → List (Ask N)
  | [] => []
  | t :: rest => Template.asks F goal levels t ++ Template.asksAll F goal levels rest

end

theorem Template.asksAll_eq (F : Framework N) (goal : Goal N) (levels : Nat) (items : List Template) :
    Template.asksAll F goal levels items = items.flatMap (Template.asks F goal levels) := by
  induction items with
  | nil => rfl
  | cons t rest ih => rw [Template.asksAll, ih, List.flatMap_cons]

/-! ### Sites that look alike -/

/-- Other levels look the same from a site as long as its templates do not run out of them. -/
structure Site.Matches (s : Site N) (levels : Nat) (beyond : Goal N → Proof) : Prop where
  last : levels = 0 ↔ s.levelsBelow = 0
  walks : ∀ pointer reached, s.framework.walk pointer reached levels [s.node] s.node
    = s.framework.walk pointer reached s.levelsBelow [s.node] s.node
  beyond : beyond = s.beyond ∨ 0 < s.levelsBelow ∧ ∀ pointer reached node,
    (s.framework.walk pointer reached s.levelsBelow [s.node] s.node).2 ≠ .exhausted node

/-- More levels look like enough levels. -/
theorem Site.Matches.of_enough {s : Site N} {levels : Nat} {beyond : Goal N → Proof} (pos : 0 < s.levelsBelow)
    (hle : s.levelsBelow ≤ levels) (enough : ∀ pointer reached node,
      (s.framework.walk pointer reached s.levelsBelow [s.node] s.node).2 ≠ .exhausted node) :
    s.Matches levels beyond where
  last := by omega
  walks := fun pointer reached => by
    have walks := s.framework.walk_walks pointer reached s.levelsBelow [s.node] s.node
    rcases walks.deepen hle with walks' | ⟨last, _, _, hend, _⟩
    · exact walks'.eq_walk
    · exact absurd hend (enough pointer reached last)
  beyond := Or.inr ⟨pos, enough⟩

section Fill
variable {s : Site N} {levels : Nat} {below : Below N} {beyond : Goal N → Proof}

/-- The proofs of the asked goals are the same. -/
def Site.Agrees (s : Site N) (below : Below N) (asks : List (Ask N)) : Prop :=
  ∀ ask ∈ asks, s.below ask.1 ask.2 = below ask.1 ask.2

omit [Node N] in
theorem Site.Agrees.map_eq {goals : List (Goal N)} (h : s.Agrees below (Goal.asked goals)) :
    goals.map (s.below 0) = goals.map (below 0) :=
  List.map_congr_left fun g hg => h (0, g) (List.mem_map_of_mem hg)

omit [Node N] in
theorem Site.Agrees.append {asks asks' : List (Ask N)} :
    s.Agrees below (asks ++ asks') ↔ s.Agrees below asks ∧ s.Agrees below asks' := List.forall_mem_append

variable (same : s.Matches levels beyond)

include same

theorem Site.statement_congr (adjective : String) (node : N) :
    s.statement adjective node = (s.over levels below beyond).statement adjective node := by
  unfold Site.statement
  rw [over_levelsBelow, over_framework]
  by_cases hz : s.levelsBelow = 0
  · rw [if_pos hz, if_pos (same.last.mpr hz)]
    rcases same.beyond with h | ⟨h, -⟩
    · exact h ▸ rfl
    · omega
  · rw [if_neg hz, if_neg (hz ∘ same.last.mp)]

theorem Site.possession_congr {adjective : String} {via : Option String} {explainFurther forwardPointer : Bool}
    (h : s.Agrees below
      (Template.asks s.framework s.goal s.levelsBelow (.possess adjective via explainFurther forwardPointer))) :
    s.possession adjective via explainFurther forwardPointer
      = (s.over levels below beyond).possession adjective via explainFurther forwardPointer := by
  unfold Site.possession
  rw [Template.asks] at h
  cases hl : s.framework.lead s.goal via forwardPointer with
  | error failure => rw [Site.target_of_error hl, Site.target_of_error (s := s.over levels below beyond) hl]
  | ok lead =>
    obtain ⟨pointed, node⟩ := lead
    rw [Site.target_of_ok hl, Site.target_of_ok (s := s.over levels below beyond) hl]
    rw [hl] at h
    have hmap := Site.Agrees.map_eq h
    rw [List.map_append, List.map_append] at hmap
    cases explainFurther with
    | true => exact congrArg Proof.all hmap
    | false =>
      have hpointed := (List.append_cancel_right hmap : pointed.map (s.below 0) = pointed.map (below 0))
      exact congrArg Proof.all (by rw [hpointed]; exact congrArg _ (congrArg (· :: []) (Site.statement_congr same _ _)))

theorem Site.groupComparison_congr {comparison group : String} {positive : Bool}
    (h : s.Agrees below (Template.asks s.framework s.goal s.levelsBelow (.compareGroup comparison group positive))) :
    s.groupComparison comparison group positive
      = (s.over levels below beyond).groupComparison comparison group positive := by
  unfold Site.groupComparison
  rw [over_levelsBelow, over_framework, over_node, over_owner]
  by_cases hz : s.levelsBelow = 0
  · rw [if_pos hz, if_pos (same.last.mpr hz)]
    rcases same.beyond with h | ⟨h, -⟩
    · exact h ▸ rfl
    · omega
  · rw [if_neg hz, if_neg (hz ∘ same.last.mp)]
    rw [Template.asks, if_neg hz] at h
    cases hm : s.framework.evaluateGroup group s.node with
    | error e => rfl
    | ok members =>
      rw [show s.framework.evaluateGroup group s.goal.node = _ from hm] at h
      have hmap := Site.Agrees.map_eq h
      rw [List.map_append, List.map_append, List.map_map, List.map_map] at hmap
      -- Both lists of proofs start with that of the group, if it is asked for, so they can be taken apart.
      have hlength : ((if s.goal.adjective ≠ group then [Goal.value group s.goal.node] else []).map (s.below 0)).length
          = ((if s.goal.adjective ≠ group then [Goal.value group s.goal.node] else []).map (below 0)).length := by
        rw [List.length_map, List.length_map]
      obtain ⟨hgroup, hmembers⟩ := List.append_inj hmap hlength
      have hmembership : (if s.owner ≠ group then some (s.explain group s.node) else none)
          = if s.owner ≠ group then some ((s.over levels below beyond).explain group s.node) else none := by
        unfold Site.owner
        split
        · rename_i hne
          rw [if_pos hne] at hgroup
          exact congrArg some (List.cons.inj hgroup).1
        · rfl
      have hproofs : members.map (fun member => (⟨[Node.label member], s.relevance comparison member,
            s.below 0 (.comparison comparison s.node member)⟩ : Member Proof))
          = members.map fun member => ⟨[Node.label member], s.relevance comparison member,
            below 0 (.comparison comparison s.node member)⟩ := by
        refine List.map_congr_left fun m hm => ?_
        rw [show s.below 0 (.comparison comparison s.node m) = below 0 (.comparison comparison s.node m) from
          List.map_inj_left.mp hmembers m hm]
      dsimp only
      rw [hmembership, hproofs]
      rfl

theorem Site.recursivePossession_congr {pointer adjective reached : String}
    (h : s.Agrees below (Template.asks s.framework s.goal s.levelsBelow (.recurse pointer adjective reached))) :
    s.recursivePossession pointer adjective reached
      = (s.over levels below beyond).recursivePossession pointer adjective reached := by
  unfold Site.recursivePossession
  rw [over_levelsBelow, over_framework, over_node, same.walks]
  rw [Template.asks] at h
  obtain ⟨hops, ending, hw⟩ : ∃ hops ending,
      s.framework.walk pointer reached s.levelsBelow [s.node] s.node = (hops, ending) := ⟨_, _, rfl⟩
  rw [show s.framework.walk pointer reached s.levelsBelow [s.goal.node] s.goal.node = _ from hw] at h
  rw [hw]
  cases ending with
  | arrived node =>
    have hbelow := h _ (List.mem_singleton_self _)
    exact congrArg Proof.all (congrArg (hops.map (Framework.hopClaim pointer) ++ [·]) hbelow)
  | exhausted node =>
    rcases same.beyond with hb | ⟨-, hb⟩
    · exact hb ▸ rfl
    · exact absurd (by rw [hw]) (hb pointer reached node)
  | _ => rfl

/-- A template sees of the levels below it the goals it asks for. -/
theorem Template.fill_congr {t : Template} (h : s.Agrees below (t.asks s.framework s.goal s.levelsBelow)) :
    t.fill s = t.fill (s.over levels below beyond) := by
  -- What is looked up is the same at both sites; so each case is about the goals that are asked for.
  induction t with
  | assume a =>
    rw [Template.fill, Template.fill]
    rfl
  | possess adjective via explainFurther forwardPointer =>
    rw [Template.fill, Template.fill, Site.possession_congr same h]
  | compare comparison pointer =>
    rw [Template.fill, Template.fill, Site.over_framework, Site.over_node]
    rw [Template.asks] at h
    cases hf : s.framework.follow s.node pointer with
    | error failure => rfl
    | ok target =>
      rw [show s.framework.follow s.goal.node pointer = _ from hf] at h
      exact congrArg some (h _ (List.mem_singleton_self _))
  | compareGroup comparison group positive =>
    rw [Template.fill, Template.fill, Site.groupComparison_congr same h]
  | compared adjective =>
    rw [Template.fill, Template.fill, Site.over_goal]
    rw [Template.asks] at h
    cases ho : s.goal.other? with
    | none => rfl
    | some other =>
      rw [ho] at h
      exact congrArg Proof.all? (Site.Agrees.map_eq h)
  | all items ih =>
    rw [Template.asks, Template.asksAll_eq] at h
    rw [Template.fill, Template.fill, Template.fillAll_eq, Template.fillAll_eq]
    have hitems : ∀ t ∈ items, t.fill s = t.fill (s.over levels below beyond) :=
      fun t ht => ih t ht fun ask hask => h ask (List.mem_flatMap.mpr ⟨t, ht, hask⟩)
    rw [List.filterMap_congr hitems]
  | branch c ifTrue ifFalse ihTrue ihFalse =>
    rw [Template.fill, Template.fill]
    rw [Template.asks] at h
    cases hl : s.framework.lead s.goal c.via true with
    | error failure => rw [Site.target_of_error hl, Site.target_of_error (s := s.over levels below beyond) hl]
    | ok lead =>
      obtain ⟨pointed, subject⟩ := lead
      rw [Site.target_of_ok hl, Site.target_of_ok (s := s.over levels below beyond) hl]
      rw [hl] at h
      dsimp only [Site.over_framework] at h ⊢
      cases hv : s.framework.evaluate c.adjective subject with
      | error e => rfl
      | ok value =>
        rw [hv] at h
        obtain ⟨hcondition, hbranch⟩ := Site.Agrees.append.mp h
        have hmap := Site.Agrees.map_eq hcondition
        rw [List.map_append, List.map_append] at hmap
        have hproof : Proof.all (pointed.map (s.below 0) ++ [s.explain c.adjective subject])
            = Proof.all (pointed.map (below 0) ++ [(s.over levels below beyond).explain c.adjective subject]) :=
          congrArg Proof.all hmap
        dsimp only
        rw [hproof]
        split
        · rename_i hexpected
          rw [if_pos hexpected] at hbranch
          rw [ihTrue hbranch]
          rfl
        · rename_i hexpected
          rw [if_neg hexpected] at hbranch
          rw [ihFalse hbranch]
          rfl
  | recurse pointer adjective reached =>
    rw [Template.fill, Template.fill, Site.recursivePossession_congr same h]

end Fill

end Rationale
