import Mathlib.Data.List.Induction
import Rationale.Proofs.Conclusions
import Rationale.Proofs.Outlines

/-!
Rewriting outlines. A pass keeps outlines if its step does the same to two nodes of which one outlines the other. The
steps of all tactics but the compaction are of that kind, and so is that to the normal form; so tactics take a proof
and one it outlines to such a pair again, and drop a claim of the first from the second only where they drop it from
both.
-/

namespace Rationale

open List

namespace Proof

/-- What every step leaves alone. -/
inductive Leaf : Proof → Prop
  | claim (c : Claim) : Leaf (.claim c)
  | assumption (t : String) : Leaf (.assumption t)
  | failure (t : String) : Leaf (.failure t)
  | nothing : Leaf nothing

/-- A step from the leaves up that keeps outlines: it opens conjunctions or keeps their parts, and it does the same to
two nodes of which one outlines the other. -/
structure Lockstep (f : Proof → Proof) : Prop where
  leaf : ∀ {p}, Leaf p → f p = p
  conj : ∀ {items q}, (∀ p ∈ items, Outlines p q) → (f (.conj items)).Outlines q
  covers : ∀ items, (f (.conj items)).Covers (.conj items)
  implies : ∀ {p p' : Proof} {c d o}, p.Alike p' → (p.transformUp f).Alike (p'.transformUp f) →
    (p.transformUp f).Outlines (p'.transformUp f) →
    (f (.implies (p.transformUp f) c d o)).Outlines (f (.implies (p'.transformUp f) c d o))
  conditional : ∀ {owner} {c c' : Proof} {branch branch'}, c.Alike c' → (c.transformUp f).Alike (c'.transformUp f) →
    (c.transformUp f).Outlines (c'.transformUp f) → (branch.getD nothing).Alike (branch'.getD nothing) →
    (branch.getD nothing).Outlines (branch'.getD nothing) →
    (f (.conditional owner (c.transformUp f) branch)).Outlines (f (.conditional owner (c'.transformUp f) branch'))
  group : ∀ {c membership membership' n n' d o} {members : List (Member Proof × Member Proof)},
    (membership.getD nothing).Outlines (membership'.getD nothing) → (∀ m ∈ members, m.1.relevance = m.2.relevance) →
    (∀ m ∈ members, m.1.proof.Outlines m.2.proof) →
    (f (.group c membership (members.map (·.1)) n d o)).Outlines
      (f (.group c membership' (members.map (·.2)) n' d o))
  alike : ∀ {p p' : Proof}, p.Alike p' → (p.transformUp f).Alike (p'.transformUp f)

section Pass
variable {f : Proof → Proof} (hf : Lockstep f)

include hf

theorem Lockstep.getD_transformUp (o : Option Proof) :
    (o.map (Proof.transformUp f)).getD nothing = (o.getD nothing).transformUp f :=
  getD_map ((transformUp_conj f []).trans (hf.leaf .nothing)) o

/-- The parts that a pass makes of a part are parts of what it makes of the whole. -/
theorem Lockstep.covers_transformUp {p x : Proof} (h : x ∈ p.parts) : (p.transformUp f).Covers (x.transformUp f) := by
  induction p with
  | conj items ih =>
    obtain ⟨p, hp, hx⟩ := mem_parts_conj.mp h
    rw [transformUp_conj]
    exact (hf.covers _).trans ((covers_conj (mem_map_of_mem hp)).trans (ih p hp hx))
  | _ =>
    obtain rfl := mem_singleton.mp h
    exact .refl _

theorem Outlines.transformUp {p q : Proof} (h : p.Outlines q) : (p.transformUp f).Outlines (q.transformUp f) := by
  -- The pass changes leaves in no way and keeps what other nodes show, so a part that is shown stays one.
  induction h with
  | placeholder unresolved =>
    rw [transformUp_claim, hf.leaf (.claim _)]
    exact .placeholder unresolved
  | assumption =>
    rw [transformUp_assumption, hf.leaf (.assumption _)]
    exact .assumption
  | failure =>
    rw [transformUp_failure, hf.leaf (.failure _)]
    exact .failure
  | claim part =>
    have covered := hf.covers_transformUp part
    rw [transformUp_claim, hf.leaf (.claim _)] at covered ⊢
    exact .claim (covered _ mem_cons_self rfl)
  | conj each ih =>
    rw [transformUp_conj]
    exact hf.conj (forall_mem_map.mpr ih)
  | implies part premise alike ih =>
    refine mono ?_ (hf.covers_transformUp part)
    rw [transformUp_implies, transformUp_implies]
    exact hf.implies alike (hf.alike alike) ih
  | conditional part condition alike selected selectedAlike ihCondition ihSelected =>
    refine mono ?_ (hf.covers_transformUp part)
    rw [transformUp_conditional, transformUp_conditional]
    refine hf.conditional alike (hf.alike alike) ihCondition ?_ ?_
    · rw [hf.getD_transformUp, hf.getD_transformUp]
      exact hf.alike selectedAlike
    · rw [hf.getD_transformUp, hf.getD_transformUp]
      exact ihSelected
  | @group q c membership membership' members n n' d o part why ranks each ihWhy ihEach =>
    refine mono ?_ (hf.covers_transformUp part)
    let pass := Member.map (Proof.transformUp f)
    have passed : (f (.group c (membership.map (Proof.transformUp f)) ((members.map (Prod.map pass pass)).map (·.1)) n d
        o)).Outlines (f (.group c (membership'.map (Proof.transformUp f))
          ((members.map (Prod.map pass pass)).map (·.2)) n' d o)) := by
      refine hf.group ?_ (forall_mem_map.mpr ranks) (forall_mem_map.mpr ihEach)
      rw [hf.getD_transformUp, hf.getD_transformUp]
      exact ihWhy
    rw [map_map, map_map] at passed
    rw [transformUp_group, transformUp_group, map_map, map_map]
    exact passed

end Pass

theorem Alike.transformUp {f : Proof → Proof} (hf : ∀ keep p, (f p).remains keep = p.remains keep) {p q : Proof}
    (h : p.Alike q) : (p.transformUp f).Alike (q.transformUp f) := fun keep => by
  rw [remains_transformUp (hf keep), remains_transformUp (hf keep), h keep]

/-- A replacement that does not look at the parts of a node may as well look at the parts first. -/
theorem rewrite_eq_transformUp {f : Proof → Option Proof} (blind : ∀ g p, f (mapChildren g p) = f p) (p : Proof) :
    p.rewrite f = p.transformUp fun q => (f q).getD q := by
  induction p using induct_children with
  | step p ih => rw [rewrite_eq, transformUp_eq, blind, mapChildren_congr ih]

/-! ### Steps -/

theorem lockstep_onlyRelevantStep (mode : RelevanceMode) : Lockstep (onlyRelevantStep mode) where
  leaf h := by cases h <;> rfl
  conj each := .conj each
  covers _ := .refl _
  implies _ alike premise := .implies mem_cons_self premise alike
  conditional _ alike condition selectedAlike selected :=
    .conditional mem_cons_self condition alike selected selectedAlike
  group {_ _ _ _ _ _ _ members} why ranks each := by
    let order := fun m m' : Member Proof × Member Proof => mode.mayPrecede m.1.relevance m'.1.relevance
    have first : ranked mode (members.map (·.1)) = (members.mergeSort order).map (·.1) :=
      (map_mergeSort (f := Prod.fst) fun _ _ _ _ => rfl).symm
    have second : ranked mode (members.map (·.2)) = (members.mergeSort order).map (·.2) :=
      (map_mergeSort (f := Prod.snd) fun m hm m' hm' => by rw [← ranks m hm, ← ranks m' hm']).symm
    have kept {m} (hm : m ∈ (members.mergeSort order).take mode.count) : m ∈ members :=
      mem_mergeSort.mp (mem_of_mem_take hm)
    rw [onlyRelevantStep, onlyRelevantStep, first, second, ← map_take, ← map_take]
    exact .group mem_cons_self why (fun m hm => ranks m (kept hm)) fun m hm => each m (kept hm)
  alike := Alike.transformUp fun keep p => by cases p <;> rfl

/-- The step that puts something in place of justified quantities. -/
def quantityStep (put : Claim → Proof) : Proof → Proof
  | .implies p c d o => if o.kind = .quantitative then put c else .implies p c d o
  | p => p

theorem lockstep_quantityStep {put : Claim → Proof} (same : ∀ c, (put c).Outlines (put c))
    (stands : ∀ keep c, (put c).remains keep = true) : Lockstep (quantityStep put) where
  leaf h := by cases h <;> rfl
  conj each := .conj each
  covers _ := .refl _
  implies _ alike premise := by
    rw [quantityStep, quantityStep]
    split
    · exact same _
    · exact .implies mem_cons_self premise alike
  conditional _ alike condition selectedAlike selected :=
    .conditional mem_cons_self condition alike selected selectedAlike
  group why ranks each := .group mem_cons_self why ranks each
  alike := Alike.transformUp fun keep p => by
    cases p with
    | implies p c d o =>
      rw [quantityStep]
      split
      · exact stands keep c
      · rfl
    | _ => rfl

theorem bareQuantity?_eq (p : Proof) : (bareQuantity? p).getD p = quantityStep .claim p := by
  cases p with
  | implies p c d o =>
    rw [bareQuantity?, quantityStep]
    split <;> rfl
  | _ => rfl

theorem rewrite_bareQuantity (p : Proof) : p.rewrite bareQuantity? = p.transformUp (quantityStep .claim) := by
  have blind : ∀ g r, bareQuantity? (mapChildren g r) = bareQuantity? r := fun g r => by
    cases r <;> simp [bareQuantity?]
  rw [rewrite_eq_transformUp blind, funext bareQuantity?_eq]

theorem phrase_eq (phrase : String) (p : Proof) :
    (if p.isQuantitative then some (.assumption phrase) else none : Option Proof).getD p
      = quantityStep (fun _ => .assumption phrase) p := by
  cases p with
  | implies p c d o =>
    rw [quantityStep, isQuantitative]
    by_cases hk : o.kind = .quantitative
    · rw [if_pos (beq_iff_eq.mpr hk), if_pos hk]
      rfl
    · rw [if_neg (fun h => hk (beq_iff_eq.mp h)), if_neg hk]
      rfl
  | _ => rfl

theorem isQuantitative_mapChildren (f : Proof → Proof) (p : Proof) :
    (mapChildren f p).isQuantitative = p.isQuantitative := by
  cases p <;> simp [isQuantitative]

theorem inside_eq (phrase : String) (p : Proof) : substituteQuantities.inside phrase p
    = (p.transformUp (quantityStep fun _ => .assumption phrase)).transformUp dedupStep := by
  have blind : ∀ g r, (if (mapChildren g r).isQuantitative then some (.assumption phrase) else none : Option Proof)
      = if r.isQuantitative then some (.assumption phrase) else none := fun g r => by
    rw [isQuantitative_mapChildren]
  rw [substituteQuantities.inside, rewrite_eq_transformUp blind, funext (phrase_eq phrase)]

theorem isAssumption_of_same {p q : Proof} (h : q.same p = true) (hp : p.isAssumption = true) :
    q.isAssumption = true := by
  cases p with
  | assumption t => cases q <;> first | rfl | cases h
  | _ => cases hp

theorem withoutRepeatedAssumptions_append (items : List Proof) (p : Proof) :
    withoutRepeatedAssumptions (items ++ [p])
      = if p.isAssumption && (withoutRepeatedAssumptions items).any (·.same p) then withoutRepeatedAssumptions items
        else withoutRepeatedAssumptions items ++ [p] := by
  rw [withoutRepeatedAssumptions, foldl_append]
  rfl

/-- An item goes missing only if it is an assumption and another one stays. -/
theorem mem_withoutRepeatedAssumptions {items : List Proof} {p : Proof} (hp : p ∈ items) :
    p ∈ withoutRepeatedAssumptions items ∨
      p.isAssumption = true ∧ ∃ q ∈ withoutRepeatedAssumptions items, q.isAssumption = true := by
  induction items using reverseRecOn with
  | nil => cases hp
  | append_singleton items last ih =>
    rw [withoutRepeatedAssumptions_append]
    split
    · rename_i repeated
      obtain ⟨hlast, hsame⟩ := (Bool.and_eq_true _ _).mp repeated
      rcases mem_append.mp hp with hp | hp
      · exact ih hp
      · obtain rfl := mem_singleton.mp hp
        obtain ⟨q, hq, hsame⟩ := any_eq_true.mp hsame
        exact .inr ⟨hlast, q, hq, isAssumption_of_same hsame hlast⟩
    · rcases mem_append.mp hp with hp | hp
      · rcases ih hp with hp | ⟨hassumption, q, hq, hq'⟩
        · exact .inl (mem_append_left _ hp)
        · exact .inr ⟨hassumption, q, mem_append_left _ hq, hq'⟩
      · exact .inl (mem_append_right _ hp)

theorem lockstep_dedupStep : Lockstep dedupStep where
  leaf h := by cases h <;> rfl
  conj each := .conj fun p hp => each p ((withoutRepeatedAssumptions_sublist _).subset hp)
  covers items x hx plain := by
    obtain ⟨p, hp, hx⟩ := mem_parts_conj.mp hx
    rcases mem_withoutRepeatedAssumptions hp with hp | ⟨hassumption, -⟩
    · exact mem_parts_conj.mpr ⟨p, hp, hx⟩
    · cases p with
      | assumption t =>
        obtain rfl := mem_singleton.mp hx
        cases plain
      | _ => cases hassumption
  implies _ alike premise := .implies mem_cons_self premise alike
  conditional _ alike condition selectedAlike selected :=
    .conditional mem_cons_self condition alike selected selectedAlike
  group why ranks each := .group mem_cons_self why ranks each
  alike := Alike.transformUp fun keep p => by
    cases p with
    | conj items =>
      rw [dedupStep, remains_conj, remains_conj, Bool.eq_iff_iff, any_eq_true, any_eq_true]
      constructor
      · rintro ⟨p, hp, left⟩
        exact ⟨p, (withoutRepeatedAssumptions_sublist _).subset hp, left⟩
      · rintro ⟨p, hp, left⟩
        rcases mem_withoutRepeatedAssumptions hp with hp | ⟨-, q, hq, hassumption⟩
        · exact ⟨p, hp, left⟩
        · cases q with
          | assumption t => exact ⟨_, hq, rfl⟩
          | _ => cases hassumption
    | _ => rfl

theorem lockstep_skipConditionStep (exceptOn : List String) : Lockstep (skipConditionStep exceptOn) where
  leaf h := by cases h <;> rfl
  conj each := .conj each
  covers _ := .refl _
  implies _ alike premise := .implies mem_cons_self premise alike
  conditional _ alike condition selectedAlike selected := by
    rw [skipConditionStep, skipConditionStep]
    split
    · exact .conditional mem_cons_self condition alike selected selectedAlike
    · exact selected
  group why ranks each := .group mem_cons_self why ranks each
  alike h keep := by rw [remains_skipCondition, remains_skipCondition, h]

theorem lockstep_normalStep : Lockstep normalStep where
  leaf h := by cases h <;> rfl
  conj each := Outlines.all fun p hp => each p (mem_filter.mp hp).1
  covers items x hx _ := by
    rw [normalStep, itemwise_parts.all, itemwise_parts.flatMap_filter]
    rwa [itemwise_parts] at hx
  implies before alike premise := by
    rw [normalStep, normalStep, ← normalize, ← normalize, isEmpty_normalize, isEmpty_normalize, before]
    split
    · exact .claim mem_cons_self
    · exact .implies mem_cons_self premise alike
  conditional before alike condition selectedAlike selected := by
    rw [normalStep, normalStep, ← normalize, ← normalize, isEmpty_normalize, isEmpty_normalize, before]
    split
    · rw [getD_filter, getD_filter]
      exact selected
    · refine .conditional mem_cons_self condition alike ?_ ?_
      · rw [getD_filter, getD_filter]
        exact selected
      · rw [getD_filter, getD_filter]
        exact selectedAlike
  group why ranks each := .group mem_cons_self why ranks each
  alike := Alike.transformUp fun _ => remains_normalStep

/-! ### Roots -/

/-- A proof as an expansion gives it: one that establishes a claim, or a failure. -/
def IsRoot (p : Proof) : Prop := (∃ c, p.Establishes c) ∨ ∃ t, p = .failure t

theorem isRoot_claim (c : Claim) : (claim c).IsRoot := .inl ⟨c, .stated⟩

theorem isRoot_failure (t : String) : (failure t).IsRoot := .inr ⟨t, rfl⟩

theorem isRoot_cannotEvaluate {N : Type} [Node N] (name : String) (node : N) (e : EvaluationError) :
    (cannotEvaluate name node e).IsRoot := .inr (cannotEvaluate_eq name node e)

namespace IsRoot

variable {p : Proof}

theorem parts (h : p.IsRoot) : p.parts = [p] := by
  rcases h with ⟨c, h⟩ | ⟨t, rfl⟩
  · cases h <;> rfl
  · rfl

theorem remains (h : p.IsRoot) (keep : String → Bool) : p.remains keep = true := by
  rcases h with ⟨c, h⟩ | ⟨t, rfl⟩
  · cases h <;> rfl
  · rfl

theorem apply (h : p.IsRoot) (t : Tactic) : (t.apply p).IsRoot := by
  rcases h with ⟨c, h⟩ | h
  · exact .inl ⟨c, t.establishes_apply h⟩
  · have kept : t.apply p = p := Tactic.applyAll_leaf [t] (.inr h)
    rw [kept]
    exact .inr h

theorem applyAll (h : p.IsRoot) (ts : List Tactic) : (Tactic.applyAll ts p).IsRoot := by
  induction ts generalizing p with
  | nil => exact h
  | cons t ts ih => exact ih (h.apply t)

end IsRoot

theorem outlines_inside (phrase : String) {p q : Proof} (h : p.Outlines q) :
    (substituteQuantities.inside phrase p).Outlines (substituteQuantities.inside phrase q) := by
  rw [inside_eq, inside_eq]
  exact .transformUp lockstep_dedupStep
    (.transformUp (lockstep_quantityStep (fun _ => .assumption) fun _ _ => rfl) h)

theorem Leaf.substituteQuantities {p : Proof} (h : p.Leaf) (phrase : String) : p.substituteQuantities phrase = p := by
  cases h <;> rw [substituteQuantities_of_other rfl, substituteQuantities.inside, rewrite_eq] <;> rfl

/-- A justified quantity that is asked for keeps its conclusion on both sides. -/
theorem outlines_substituteQuantities (phrase : String) {p q : Proof} (hp : p.IsRoot) (hq : q.IsRoot)
    (h : p.Outlines q) : (p.substituteQuantities phrase).Outlines (q.substituteQuantities phrase) := by
  have whole {x : Proof} (hx : x ∈ q.parts) : x = q := by
    rw [hq.parts] at hx
    exact mem_singleton.mp hx
  rcases hp with ⟨c, stated | ⟨premise, d, o⟩⟩ | ⟨t, rfl⟩
  · cases h with
    | placeholder unresolved =>
      rw [(Leaf.claim c).substituteQuantities]
      exact .placeholder unresolved
    | claim part =>
      obtain rfl := whole part
      rw [(Leaf.claim c).substituteQuantities]
      exact .claim mem_cons_self
  · cases h with
    | implies part outlined alike =>
      obtain rfl := whole part
      by_cases hk : o.kind = .quantitative
      · rw [substituteQuantities, substituteQuantities, if_pos hk, if_pos hk]
        exact .implies mem_cons_self .assumption fun _ => rfl
      · have other {r : Proof} : (implies r c d o).isQuantitative = false := beq_eq_false_iff_ne.mpr hk
        rw [substituteQuantities_of_other other, substituteQuantities_of_other other]
        exact outlines_inside phrase (.implies part outlined alike)
  · rw [(Leaf.failure t).substituteQuantities]
    exact .failure

end Proof

theorem Tactic.outlines_apply {t : Tactic} (keeps : t.isCompaction = false) {p q : Proof} (hp : p.IsRoot)
    (hq : q.IsRoot) (h : p.Outlines q) : (t.apply p).Outlines (t.apply q) := by
  refine .transformUp Proof.lockstep_normalStep ?_
  cases t with
  | onlyRelevant mode => exact h.transformUp (Proof.lockstep_onlyRelevantStep mode)
  | skipQuantitative =>
    rw [rewrite, rewrite, Proof.rewrite_bareQuantity, Proof.rewrite_bareQuantity]
    exact h.transformUp (Proof.lockstep_quantityStep (fun _ => .claim mem_cons_self) fun _ _ => rfl)
  | substituteQuantitative phrase => exact Proof.outlines_substituteQuantities phrase hp hq h
  | compactSame => cases keeps
  | skipCondition exceptOn => exact h.transformUp (Proof.lockstep_skipConditionStep exceptOn)

theorem Tactic.outlines_applyAll {ts : List Tactic} (keep : ∀ t ∈ ts, t.isCompaction = false) {p q : Proof}
    (hp : p.IsRoot) (hq : q.IsRoot) (h : p.Outlines q) : (applyAll ts p).Outlines (applyAll ts q) := by
  induction ts generalizing p q with
  | nil => exact h
  | cons t ts ih =>
    obtain ⟨keeps, keep⟩ := forall_mem_cons.mp keep
    exact ih keep (hp.apply t) (hq.apply t) (outlines_apply keeps hp hq h)

end Rationale
