import Rationale.Proofs.Conclusions
import Rationale.Proofs.Depth

/-!
Assumptions are beside the argument. What is left of a proof without its assumptions is its bare form; it states what
the proof states. Explanations under settings that differ in how assumptions are shown, or in how proofs are printed,
have the same bare form, although an assumption left out can turn an implication into a claim, take the branch of a
conditional away, or leave a conjunction with one item only.
-/

namespace Rationale

open List

namespace Proof

/-- A conditional with parts of a branch: the parts alone, if there is no condition. -/
def bareConditional (owner : String) (condition : Option Proof) (branch : List Proof) : List Proof :=
  match condition with
  | none => branch
  | some c => [.conditional owner c (all? branch)]

mutual

/-- The parts of a proof that are left without its assumptions. Conjunctions are opened, and nothing stands on a part
of which nothing is left. -/
def bareParts : Proof → List Proof
  | .claim c => [.claim c]
  | .assumption _ => []
  | .failure t => [.failure t]
  | .conj items => barePartsOfAll items
  | .implies p c d o => [because (all? p.bareParts) c d o]
  | .conditional owner c branch =>
    bareConditional owner (all? c.bareParts) (match branch with
      | none => []
      | some p => p.bareParts)
  | .group c membership members n d o =>
    [.group c (match membership with
      | none => none
      | some p => all? p.bareParts) (bareMembers members) n d o]
  | .annotated p note => [.annotated (all p.bareParts) note]

def barePartsOfAll : List Proof → List Proof
  | [] => []
  | p :: rest => p.bareParts ++ barePartsOfAll rest

def bareMembers : List (Member Proof) → List (Member Proof)
  | [] => []
  | ⟨labels, relevance, p⟩ :: rest => ⟨labels, relevance, all p.bareParts⟩ :: bareMembers rest

end

/-- What is left of a proof without its assumptions, in normal form. -/
def bare (p : Proof) : Proof := all p.bareParts

@[simp] theorem bareParts_claim (c : Claim) : (claim c).bareParts = [claim c] := rfl

@[simp] theorem bareParts_assumption (t : String) : (assumption t).bareParts = [] := rfl

@[simp] theorem bareParts_conj (items : List Proof) : (conj items).bareParts = items.flatMap bareParts := by
  change barePartsOfAll items = _
  induction items with
  | nil => rfl
  | cons p rest ih => rw [barePartsOfAll, ih, flatMap_cons]

@[simp] theorem bareParts_implies (p : Proof) (c : Claim) (d : Nat) (o : Origin) :
    (implies p c d o).bareParts = [because (all? p.bareParts) c d o] := rfl

@[simp] theorem bareParts_conditional (owner : String) (c : Proof) (branch : Option Proof) :
    (conditional owner c branch).bareParts = bareConditional owner (all? c.bareParts) (branch.elim [] bareParts) := by
  cases branch <;> rfl

@[simp] theorem bareParts_group (c : Claim) (membership : Option Proof) (members : List (Member Proof)) (n d : Nat)
    (o : Origin) : (group c membership members n d o).bareParts
      = [group c (all? (membership.elim [] bareParts)) (members.map (Member.map bare)) n d o] := by
  have mapped : bareMembers members = members.map (Member.map bare) := by
    induction members with
    | nil => rfl
    | cons m rest ih => rw [bareMembers, ih, map_cons, Member.map, bare]
  rw [← mapped]
  cases membership <;> rfl

@[simp] theorem bareParts_annotated (p : Proof) (note : String) :
    (annotated p note).bareParts = [annotated p.bare note] := rfl

theorem itemwise_bareParts : Itemwise bareParts := bareParts_conj

@[simp] theorem bareParts_because (premise : Option Proof) (c : Claim) (d : Nat) (o : Origin) :
    (because premise c d o).bareParts = [because (all? (premise.elim [] bareParts)) c d o] := by
  cases premise <;> rfl

theorem bareParts_mapChildren {f : Proof → Proof} {p : Proof}
    (h : ∀ q ∈ p.children, (f q).bareParts = q.bareParts) : (mapChildren f p).bareParts = p.bareParts := by
  have optional : ∀ o : Option Proof, (∀ q ∈ o, (f q).bareParts = q.bareParts) →
      (o.map f).elim [] bareParts = o.elim [] bareParts := by
    rintro (_ | q) h
    · rfl
    · exact h q rfl
  cases p with
  | conj items =>
    rw [mapChildren_conj, bareParts_conj, bareParts_conj, flatMap_map]
    exact flatMap_congr h
  | implies p c d o =>
    rw [mapChildren_implies, bareParts_implies, bareParts_implies, h p mem_cons_self]
  | conditional owner c branch =>
    rw [mapChildren_conditional, bareParts_conditional, bareParts_conditional, h c mem_cons_self,
      optional branch fun q hq => h q (mem_cons_of_mem _ (Option.mem_toList.mpr hq))]
  | group c membership members n d o =>
    have same : members.map (Member.map bare ∘ Member.map f) = members.map (Member.map bare) :=
      map_congr_left fun m hm => by
        simp only [Function.comp_apply, Member.map, bare, h m.proof (mem_append_right _ (mem_map_of_mem hm))]
    rw [mapChildren_group, bareParts_group, bareParts_group, map_map, same,
      optional membership fun q hq => h q (mem_append_left _ (Option.mem_toList.mpr hq))]
  | annotated p note =>
    rw [mapChildren_annotated, bareParts_annotated, bareParts_annotated, bare, h p mem_cons_self, bare]
  | _ => rfl

theorem bareParts_normalStep (p : Proof) : (normalStep p).bareParts = p.bareParts := by
  cases p with
  | conj items => rw [normalStep, itemwise_bareParts.all, itemwise_bareParts.flatMap_filter, bareParts_conj]
  | implies p c d o =>
    rw [normalStep]
    split
    · rename_i h
      rw [bareParts_implies, itemwise_bareParts.of_isEmpty h]
      rfl
    · rfl
  | conditional owner c branch =>
    rw [normalStep, bareParts_conditional]
    split
    · rename_i h
      rw [itemwise_bareParts.getD, itemwise_bareParts.elim_filter, itemwise_bareParts.of_isEmpty h]
      rfl
    · rw [bareParts_conditional, itemwise_bareParts.elim_filter]
  | _ => rfl

theorem bareParts_normalize (p : Proof) : p.normalize.bareParts = p.bareParts := by
  rw [normalize]
  induction p using induct_children with
  | step p ih => rw [transformUp_eq, bareParts_normalStep, bareParts_mapChildren ih]

theorem entries_bareConditional (owner : String) (condition : Option Proof) (branch : List Proof) :
    (bareConditional owner condition branch).flatMap entries = entries? condition ++ branch.flatMap entries := by
  cases condition with
  | none => rfl
  | some c =>
    rw [bareConditional, flatMap_singleton, entries_conditional, entries?_all?]
    rfl

/-- Without its assumptions a proof still states what it states. -/
theorem entries_bare (p : Proof) : p.bare.entries = p.stated := by
  rw [bare, entries_all]
  induction p using induct_children with
  | step p ih =>
    rw [stated_eq, ← flatMap_congr ih]
    cases p with
    | conj items =>
      rw [bareParts_conj, flatMap_assoc]
      exact (append_nil _).symm
    | implies p c d o =>
      rw [bareParts_implies, flatMap_singleton, entries_because, entries?_all?]
      exact congrArg (· ++ _) (flatMap_singleton _ _).symm
    | conditional owner c branch =>
      rw [bareParts_conditional, entries_bareConditional, entries?_all?]
      cases branch <;> simp [children, own?]
    | group c membership members n d o =>
      rw [bareParts_group, flatMap_singleton, entries_group, entries?_all?]
      cases membership <;> simp [children, own?, flatMap_map, Member.map, bare, Entry.isAssumption]
    | annotated p note =>
      rw [bareParts_annotated, flatMap_singleton, entries_annotated, bare, entries_all]
      simp [children, own?]
    | _ => rfl

end Proof

variable {N : Type} [Node N]

open Proof (bareParts)

/-! ### Filled templates and expansions -/

/-- The site under other settings. -/
def Site.under (s : Site N) (settings : Settings) (below : Below N) : Site N := { s with settings, below }

namespace Site

variable (s : Site N) (settings : Settings) (below : Below N)

omit [Node N]

@[simp] theorem under_framework : (s.under settings below).framework = s.framework := rfl

@[simp] theorem under_node : (s.under settings below).node = s.node := rfl

@[simp] theorem under_owner : (s.under settings below).owner = s.owner := rfl

@[simp] theorem under_levelsBelow : (s.under settings below).levelsBelow = s.levelsBelow := rfl

@[simp] theorem under_below : (s.under settings below).below = below := rfl

@[simp] theorem under_beyond : (s.under settings below).beyond = s.beyond := rfl

end Site

section Fill
variable {s : Site N} {settings : Settings} {below : Below N}
  (hbelow : ∀ k g, (below k g).bareParts = (s.below k g).bareParts)

omit [Node N] in
theorem Site.bareParts_assumption (s : Site N) (a : Assumption) : (s.assumption a).elim [] bareParts = [] := by
  rcases s.assumption_eq a with h | ⟨t, h⟩
  · rw [h]
    rfl
  · rw [h]
    rfl

include hbelow

theorem Site.bareParts_groupComparison (comparison group : String) (positive : Bool) :
    ((s.under settings below).groupComparison comparison group positive).bareParts
      = (s.groupComparison comparison group positive).bareParts := by
  unfold Site.groupComparison
  by_cases hz : s.levelsBelow = 0
  · rw [if_pos hz, if_pos (show (s.under settings below).levelsBelow = 0 from hz)]
    rfl
  · rw [if_neg hz, if_neg (show (s.under settings below).levelsBelow ≠ 0 from hz), under_framework, under_node]
    split
    · rfl
    · rename_i members _
      rw [Proof.bareParts_group, Proof.bareParts_group, map_map, map_map]
      refine congrArg₂ (fun membership entries => [Proof.group _ (Proof.all? membership) entries 0 _ _]) ?_
        (map_congr_left fun m _ => ?_)
      · rw [under_owner]
        split
        · exact hbelow _ _
        · rfl
      · exact congrArg (Member.mk _ _) (congrArg Proof.all (hbelow _ _))

theorem Site.bareParts_recursivePossession (pointer adjective goal : String) :
    ((s.under settings below).recursivePossession pointer adjective goal).bareParts
      = (s.recursivePossession pointer adjective goal).bareParts := by
  unfold Site.recursivePossession
  dsimp only [under_framework, under_node, under_levelsBelow, under_below, under_beyond]
  split
  · rw [Proof.itemwise_bareParts.all, Proof.itemwise_bareParts.all, flatMap_append, flatMap_append, flatMap_singleton,
      flatMap_singleton, hbelow]
  all_goals rfl

/-- How assumptions are shown at a site changes nothing else there. -/
theorem Site.related_under :
    s.Related (fun p p' => p'.elim [] bareParts = p.elim [] bareParts) (s.under settings below) where
  framework := rfl
  goal := rfl
  failure _ := rfl
  assumption a := (Site.bareParts_assumption _ a).trans (Site.bareParts_assumption s a).symm
  asked := hbelow 0
  statement _ _ := rfl
  groupComparison := Site.bareParts_groupComparison hbelow
  recursivePossession := Site.bareParts_recursivePossession hbelow
  following asked {p p'} h := by
    rw [Option.elim_some, Option.elim_some] at h ⊢
    rw [Proof.itemwise_bareParts.all, Proof.itemwise_bareParts.all, flatMap_append, flatMap_append, flatMap_map,
      flatMap_map, flatMap_singleton, flatMap_singleton, h, Site.under_below]
    exact congrArg (· ++ _) (flatMap_congr fun g _ => hbelow 0 g)
  all? rows h := by
    rw [Proof.itemwise_bareParts.elim_all?, Proof.itemwise_bareParts.elim_all?, flatMap_filterMap, flatMap_filterMap]
    exact flatMap_congr h
  conditional {owner _ _ _ _} hc hb := by
    rw [Option.elim_some, Option.elim_some] at hc ⊢
    rw [Proof.bareParts_conditional, Proof.bareParts_conditional, hc, hb]

end Fill

theorem Framework.bareParts_expand {F : Framework N} (untouched : F.Untouched) (settings settings' : Settings)
    (beyond : Goal N → Proof) (levels skipped level : Nat) (path : List (Goal N)) (goal : Goal N) :
    (F.expand settings' beyond levels skipped level path goal).bareParts
      = (F.expand settings beyond levels skipped level path goal).bareParts := by
  induction levels generalizing skipped level path goal with
  | zero => rw [expand, expand]
  | succ levels ih =>
    cases skipped with
    | succ skipped =>
      rw [expand, expand]
      exact ih _ _ _ _
    | zero =>
      rw [expand, expand]
      refine expandGoal_related (R := fun p p' => p.bareParts = p'.bareParts) (fun _ => rfl) (fun _ _ _ => rfl)
        (fun _ _ _ _ => rfl) fun a c ha _ _ => ?_
      rw [untouched.adjectives a (adjective?_mem ha)]
      change (Proof.because _ _ _ _).bareParts = (Proof.because _ _ _ _).bareParts
      rw [Proof.bareParts_because, Proof.bareParts_because]
      let site (settings : Settings) : Site N :=
        { framework := F, settings, goal, level, levelsBelow := levels, beyond
          below := fun skipped g =>
            F.expand settings beyond levels skipped (level + 1 + skipped) (path ++ [goal]) g }
      have filled : (a.template.fill ((site settings).under settings' (site settings').below)).elim [] bareParts
          = (a.template.fill (site settings)).elim [] bareParts :=
        Template.fill_related (Site.related_under fun k g => ih k _ _ g) _
      exact congrArg (fun parts => [Proof.because (Proof.all? parts) _ _ _]) filled

theorem Framework.bare_explanation {F : Framework N} (untouched : F.Untouched) {settings settings' : Settings}
    (depth : settings.explanationDepth = settings'.explanationDepth) (goal : Goal N) :
    (F.explanation settings' goal).bare = (F.explanation settings goal).bare := by
  unfold Framework.explanation Proof.bare
  rw [Proof.bareParts_normalize, Proof.bareParts_normalize, untouched.framework, depth]
  exact congrArg Proof.all (F.bareParts_expand untouched settings settings' _ _ _ _ _ _)

/-! ### Answers -/

theorem Framework.conclusion?_explanation {F : Framework N} {settings settings' : Settings}
    (depth : settings.explanationDepth = settings'.explanationDepth) {goal : Goal N} {a : Adjective N}
    (ha : F.adjective? goal.adjective = some a) :
    (F.explanation settings' goal).conclusion? = (F.explanation settings goal).conclusion? := by
  rcases Nat.eq_zero_or_pos settings.explanationDepth with shallow | deep
  · rw [explanation_unresolved shallow, explanation_unresolved (depth ▸ shallow)]
  · cases hv : F.verdict a goal with
    | ok c => rw [conclusion_explanation goal ha deep hv, conclusion_explanation goal ha (depth ▸ deep) hv]
    | error e => rw [explanation_undecided goal ha deep hv, explanation_undecided goal ha (depth ▸ deep) hv]

/-- The same argument, but for its assumptions. -/
structure Proof.ArguesAs (p q : Proof) : Prop where
  claims : p.claims = q.claims
  conclusion : p.conclusion? = q.conclusion?
  failures : p.entries.filter Entry.isFailure = q.entries.filter Entry.isFailure
  /-- What is left of the two without assumptions is one proof, in one shape. -/
  bare : p.bare = q.bare

theorem Proof.ArguesAs.of_bare {p q : Proof} (bare : p.bare = q.bare) (conclusion : p.conclusion? = q.conclusion?) :
    p.ArguesAs q := by
  have stated : p.stated = q.stated := by rw [← p.entries_bare, bare, q.entries_bare]
  have claims : ∀ r : Proof, r.stated.filterMap Entry.claim? = r.claims := fun r => by
    rw [r.claims_eq, Proof.stated, filterMap_filter]
    refine filterMap_congr fun e _ => ?_
    cases e <;> rfl
  have failures : ∀ r : Proof, r.stated.filter Entry.isFailure = r.entries.filter Entry.isFailure := fun r => by
    rw [Proof.stated, filter_filter]
    refine filter_congr fun e _ => ?_
    cases e <;> rfl
  exact ⟨by rw [← claims, stated, claims], conclusion, by rw [← failures, stated, failures], bare⟩

/-- Under settings that agree on the depth, an untouched framework answers with the same argument, whatever the
settings say of assumptions and of printing; and it declines the same questions. -/
theorem Framework.explain_arguesAs {F : Framework N} (untouched : F.Untouched) (settings settings' : Settings)
    (depth : settings.explanationDepth = settings'.explanationDepth)
    (selected : settings.framework = settings'.framework) (node : N) (adjective : String) (other : Option N) :
    (∃ x x', F.explain settings node adjective other = .ok x ∧ F.explain settings' node adjective other = .ok x' ∧
        x'.proof.ArguesAs x.proof) ∨
      ∃ e, F.explain settings node adjective other = .error e ∧ F.explain settings' node adjective other = .error e := by
  cases answered : F.explain settings node adjective other with
  | ok x =>
    obtain ⟨a, goal, ha, hgoal, rfl⟩ := explain_eq_ok.mp answered
    have named : F.adjective? goal.adjective = some a := by
      rw [Adjective.goal_adjective hgoal, adjective?_name ha]
      exact ha
    refine .inl ⟨_, _, rfl, explain_eq_ok.mpr ⟨a, goal, ha, hgoal, rfl⟩, .of_bare ?_ ?_⟩
    · exact bare_explanation untouched depth goal
    · exact conclusion?_explanation depth named
  | error e =>
    refine .inr ⟨e, rfl, ?_⟩
    unfold explain at answered ⊢
    cases ha : F.adjective? adjective with
    | none =>
      rw [ha] at answered
      rw [← selected]
      exact answered
    | some a =>
      cases hgoal : a.goal node other with
      | ok goal => simp [ha, hgoal, bind, Except.bind, pure, Except.pure] at answered
      | error e' => simpa [ha, hgoal, bind, Except.bind] using answered

/-- The definition of the best suit shows or does not show, and clubs are not the best one all the same. -/
theorem Suit.arguesAs_without_definition :
    ∃ x x', (framework []).explain { explanationDepth := 2, verbosity := .no } clubs "best" = .ok x ∧
      (framework []).explain
        { explanationDepth := 2, verbosity := .verbose, printImplicitAssumptions := true, printDepth := true } clubs "best"
          = .ok x' ∧ x'.proof.ArguesAs x.proof := by
  have untouched : (framework []).Untouched := ⟨rfl, tactics_eq_nil []⟩
  rcases Framework.explain_arguesAs untouched { explanationDepth := 2, verbosity := .no }
      { explanationDepth := 2, verbosity := .verbose, printImplicitAssumptions := true, printDepth := true }
      rfl rfl clubs "best" none with answers | ⟨e, declined, -⟩
  · exact answers
  · cases declined

end Rationale
