import Rationale.Proofs.Idempotence

/-!
What tactics take out of a proof. Nothing is stated that was not stated before, nor more often. The tactics that leave
out justifications leave none that they are to leave out, however deep it stands, and besides the claims within these
they leave every claim where it stood: no parts of a node but a premise or a condition are hidden, and no node but a
justified quantity for which a phrase is put ceases to state what it states.
-/

namespace Rationale

open List

namespace Proof

mutual

/-- The claims of a proof without those of the premises and conditions of nodes that do not show them, and without those
that nodes do not state themselves. -/
def shown (shows states : Proof → Bool) : Proof → List Claim
  | .claim c => if states (.claim c) then [c] else []
  | .assumption _ => []
  | .failure _ => []
  | .conj items => shownOfAll shows states items
  | .implies premise c d o =>
    (if shows (.implies premise c d o) then premise.shown shows states else [])
      ++ if states (.implies premise c d o) then [c] else []
  | .conditional owner condition branch =>
    (if shows (.conditional owner condition branch) then condition.shown shows states else [])
      ++ (match branch with
        | none => []
        | some p => p.shown shows states)
  | .group c membership members n d o =>
    (match membership with
      | none => []
      | some p => p.shown shows states) ++ shownOfMembers shows states members
      ++ if states (.group c membership members n d o) then [c] else []
  | .annotated p _ => p.shown shows states

def shownOfAll (shows states : Proof → Bool) : List Proof → List Claim
  | [] => []
  | p :: rest => p.shown shows states ++ shownOfAll shows states rest

def shownOfMembers (shows states : Proof → Bool) : List (Member Proof) → List Claim
  | [] => []
  | ⟨_, _, p⟩ :: rest => p.shown shows states ++ shownOfMembers shows states rest

end

/-- The parts of a node that are shown. -/
def shownParts (shows : Proof → Bool) : Proof → List Proof
  | .implies p c d o => if shows (.implies p c d o) then [p] else []
  | .conditional owner c branch => (if shows (.conditional owner c branch) then [c] else []) ++ branch.toList
  | p => p.children

/-- The claim that a node states besides its parts. -/
def ownClaims (p : Proof) : List Claim := (p.own?.bind Entry.claim?).toList

section Shown
variable {shows states : Proof → Bool}

theorem shown_eq (p : Proof) : p.shown shows states
    = (p.shownParts shows).flatMap (shown shows states) ++ if states p then p.ownClaims else [] := by
  have items_eq (items : List Proof) : shownOfAll shows states items = items.flatMap (shown shows states) := by
    induction items with
    | nil => rfl
    | cons p rest ih => rw [shownOfAll, ih, flatMap_cons]
  have members_eq (members : List (Member Proof)) : shownOfMembers shows states members
      = (members.map (·.proof)).flatMap (shown shows states) := by
    induction members with
    | nil => rfl
    | cons m rest ih => rw [shownOfMembers, ih, map_cons, flatMap_cons]
  cases p with
  | conj items => simp [shown, items_eq, shownParts, children, ownClaims, own?]
  | implies p c d o =>
    rw [shown, shownParts]
    split <;> simp [ownClaims, own?, Entry.claim?]
  | conditional owner c branch =>
    cases branch <;> rw [shown, shownParts] <;> split <;> simp [ownClaims, own?]
  | group c membership members n d o =>
    cases membership <;> simp [shown, members_eq, shownParts, children, ownClaims, own?, Entry.claim?]
  | _ => simp [shown, shownParts, children, ownClaims, own?, Entry.claim?]

theorem shownParts_subset (p : Proof) : p.shownParts shows ⊆ p.children := by
  cases p with
  | implies p c d o =>
    rw [shownParts]
    split
    · exact Subset.refl _
    · exact nil_subset _
  | conditional owner c branch =>
    rw [shownParts]
    split
    · exact Subset.refl _
    · exact subset_cons_self _ _
  | _ => exact Subset.refl _

theorem ownClaims_mapChildren (f : Proof → Proof) (p : Proof) : (mapChildren f p).ownClaims = p.ownClaims := by
  rw [ownClaims, own?_mapChildren, ownClaims]

theorem shownParts_mapChildren (blind : ∀ g p, shows (mapChildren g p) = shows p) (f : Proof → Proof) (p : Proof) :
    (mapChildren f p).shownParts shows = (p.shownParts shows).map f := by
  have same := blind f p
  cases p with
  | implies p c d o =>
    rw [mapChildren_implies] at same ⊢
    rw [shownParts, shownParts, same]
    split <;> rfl
  | conditional owner c branch =>
    rw [mapChildren_conditional] at same ⊢
    rw [shownParts, shownParts, same]
    cases branch <;> split <;> rfl
  | group c membership members n d o =>
    have parts := children_mapChildren f (group c membership members n d o)
    rwa [mapChildren_group] at parts ⊢
  | _ => simp [shownParts, children]

/-- A pass from the leaves up leaves the claims that are shown, if its step takes out of a node what is not. -/
theorem claims_transformUp_shown {f : Proof → Proof} (blindShows : ∀ g p, shows (mapChildren g p) = shows p)
    (blindStates : ∀ g p, states (mapChildren g p) = states p)
    (step : ∀ p, (f p).claims = (p.shownParts shows).flatMap claims ++ if states p then p.ownClaims else [])
    (p : Proof) : (p.transformUp f).claims = p.shown shows states := by
  induction p using induct_children with
  | step p ih =>
    rw [transformUp_eq, step, shownParts_mapChildren blindShows, blindStates, ownClaims_mapChildren, flatMap_map,
      flatMap_congr fun q hq => ih q (shownParts_subset p hq), shown_eq]

end Shown

theorem claims_eq_ownClaims (p : Proof) : p.claims = p.children.flatMap claims ++ p.ownClaims := claims_eq_children p

theorem claims_normalize (p : Proof) : p.normalize.claims = p.claims := (normalize_settles p).claims

/-! ### Steps and tactics -/

theorem claims_skipConditionStep (exceptOn : List String) (p : Proof) : (skipConditionStep exceptOn p).claims
    = (p.shownParts (isExplained exceptOn)).flatMap claims ++ p.ownClaims := by
  cases p with
  | conditional owner c branch =>
    rw [skipConditionStep, shownParts, isExplained]
    split
    · exact claims_eq_ownClaims _
    · cases branch with
      | none => rfl
      | some p => simp [ownClaims, own?]
  | _ => exact claims_eq_ownClaims _

/-- A step that puts something in place of justified quantities, with or without their conclusions. -/
theorem claims_quantityStep {put : Claim → Proof} {states : Proof → Bool}
    (other : ∀ p : Proof, p.isQuantitative = false → states p = true)
    (same : ∀ p c d o, o.kind = .quantitative → (put c).claims = if states (.implies p c d o) then [c] else [])
    (p : Proof) : (quantityStep put p).claims
      = (p.shownParts fun q => !q.isQuantitative).flatMap claims ++ if states p then p.ownClaims else [] := by
  cases hp : p.isQuantitative with
  | true =>
    cases p with
    | implies p c d o =>
      have kind : o.kind = .quantitative := beq_iff_eq.mp hp
      rw [quantityStep, if_pos kind, same p c d o kind, shownParts, hp]
      rfl
    | _ => cases hp
  | false =>
    have parts : (p.shownParts fun q => !q.isQuantitative) = p.children := by
      cases p with
      | implies p c d o => rw [shownParts, hp]; rfl
      | _ => rfl
    rw [quantityStep_of_other hp, parts, other p hp, if_pos rfl, claims_eq_ownClaims]

theorem claims_dedupStep (p : Proof) : (dedupStep p).claims = p.claims := by
  cases p with
  | conj items =>
    rw [dedupStep, claims, claims, claimsOfAll_eq, claimsOfAll_eq]
    induction items using reverseRecOn with
    | nil => rfl
    | append_singleton items p ih =>
      rw [withoutRepeatedAssumptions_append, flatMap_append, ← ih]
      split
      · rename_i repeated
        have silent : p.claims = [] := by
          cases p with
          | assumption t => rfl
          | _ => cases repeated
        rw [flatMap_singleton, silent, append_nil]
      · rw [flatMap_append]
  | _ => rfl

theorem claims_dedup (p : Proof) : (p.transformUp dedupStep).claims = p.claims := by
  induction p using induct_children with
  | step p ih =>
    rw [transformUp_eq, claims_dedupStep, claims_eq_ownClaims, children_mapChildren, ownClaims_mapChildren, flatMap_map,
      flatMap_congr ih, ← claims_eq_ownClaims]

end Proof

/-- What tactics that leave out justifications leave of a proof. -/
inductive Tactic.Clears : Tactic → Proof → Proof → Prop
  /-- These tactics leave out no kind of justification. -/
  | relevance {mode : RelevanceMode} {p q : Proof} : Clears (.onlyRelevant mode) p q
  | compaction {p q : Proof} : Clears .compactSame p q
  /-- No quantity is justified, and only what justified quantities is missing. -/
  | quantities {p q : Proof} (bare : q.Every fun r => r.isQuantitative = false)
      (kept : q.claims = p.shown (fun r => !r.isQuantitative) fun _ => true) : Clears .skipQuantitative p q
  /-- A justified quantity at the root keeps its conclusion, for which there is but the phrase. -/
  | root {phrase : String} {premise : Proof} {c : Claim} {d : Nat} {o : Origin} (kind : o.kind = .quantitative) :
      Clears (.substituteQuantitative phrase) (.implies premise c d o) (.implies (.assumption phrase) c d o)
  /-- Elsewhere no quantity is justified, and only justified quantities are missing. -/
  | phrases {phrase : String} {p q : Proof} (own : p.isQuantitative = false)
      (bare : q.Every fun r => r.isQuantitative = false)
      (kept : q.claims = p.shown (fun r => !r.isQuantitative) fun r => !r.isQuantitative) :
      Clears (.substituteQuantitative phrase) p q
  /-- No conditional of another owner is left, and only conditions are missing. -/
  | conditions {exceptOn : List String} {p q : Proof} (skipped : q.Every fun r => r.isExplained exceptOn = true)
      (kept : q.claims = p.shown (Proof.isExplained exceptOn) fun _ => true) : Clears (.skipCondition exceptOn) p q

/-- The tactic takes something out of the first proof, all that it is to take out, and leaves the second. -/
structure Tactic.Removes (t : Tactic) (p q : Proof) : Prop where
  /-- No claim is new, and none stands more often. -/
  claims : q.claims <+~ p.claims
  clears : t.Clears p q

namespace Proof

theorem claims_subperm {p q : Proof} (h : q.stated <+~ p.stated) : q.claims <+~ p.claims := by
  have read (p : Proof) : p.claims = p.stated.filterMap Entry.claim? := by
    rw [claims_eq, stated, filterMap_filter]
    exact filterMap_congr fun e _ => by cases e <;> rfl
  obtain ⟨l, perm, sub⟩ := h
  rw [read, read]
  exact ⟨_, perm.filterMap _, sub.filterMap _⟩

theorem clears_skipQuantitative (p : Proof) : Tactic.skipQuantitative.Clears p (Tactic.skipQuantitative.apply p) := by
  have finishes : Finishes (quantityStep .claim) fun p => p.isQuantitative = false :=
    finishes_quantityStep (fun _ => rfl) fun _ => rfl
  rw [Tactic.apply, Tactic.rewrite, rewrite_bareQuantity]
  refine .quantities ((every_transformUp finishes.step p).normalize finishes.lasting finishes.blind) ?_
  rw [claims_normalize]
  refine claims_transformUp_shown (fun g r => by rw [isQuantitative_mapChildren]) (fun _ _ => rfl) ?_ p
  exact claims_quantityStep (fun _ _ => rfl) fun _ _ _ _ _ => rfl

theorem clears_substituteQuantitative (phrase : String) (p : Proof) :
    (Tactic.substituteQuantitative phrase).Clears p ((Tactic.substituteQuantitative phrase).apply p) := by
  rw [Tactic.apply, Tactic.rewrite]
  cases hp : p.isQuantitative with
  | true =>
    cases p with
    | implies premise c d o =>
      have kind : o.kind = .quantitative := beq_iff_eq.mp hp
      rw [substituteQuantities, if_pos kind, normalize_phrase]
      exact .root kind
    | _ => cases hp
  | false =>
    rw [substituteQuantities_of_other hp]
    refine .phrases hp (every_bare_inside phrase p) ?_
    rw [claims_normalize, inside_eq, claims_dedup]
    have blind (g : Proof → Proof) (r : Proof) : (!(mapChildren g r).isQuantitative) = !r.isQuantitative := by
      rw [isQuantitative_mapChildren]
    refine claims_transformUp_shown blind blind ?_ p
    refine claims_quantityStep (fun r hr => by rw [hr]; rfl) fun p c d o kind => ?_
    have justified : (implies p c d o).isQuantitative = true := beq_iff_eq.mpr kind
    rw [justified]
    rfl

theorem clears_skipCondition (exceptOn : List String) (p : Proof) :
    (Tactic.skipCondition exceptOn).Clears p ((Tactic.skipCondition exceptOn).apply p) := by
  have finishes := finishes_skipConditionStep exceptOn
  rw [Tactic.apply, Tactic.rewrite]
  refine .conditions ((every_transformUp finishes.step p).normalize finishes.lasting finishes.blind) ?_
  rw [claims_normalize]
  refine claims_transformUp_shown (fun g r => ?_) (fun _ _ => rfl) (claims_skipConditionStep exceptOn) p
  cases r <;> simp [isExplained]

end Proof

/-- Every tactic only removes, and removes completely. -/
theorem Tactic.apply_removes (t : Tactic) (p : Proof) : t.Removes p (t.apply p) where
  claims := Proof.claims_subperm (t.stated_apply_subperm p)
  clears := by
    cases t with
    | onlyRelevant mode => exact .relevance
    | skipQuantitative => exact Proof.clears_skipQuantitative p
    | substituteQuantitative phrase => exact Proof.clears_substituteQuantitative phrase p
    | compactSame => exact .compaction
    | skipCondition exceptOn => exact Proof.clears_skipCondition exceptOn p

end Rationale
