import Mathlib.Data.List.Flatten
import Mathlib.Data.List.Perm.Subperm
import Rationale.Proofs.Entries
import Rationale.Tactic

/-!
Tactics only take away. What a proof states, its claims and failures without the assumptions, is after every
tactic a part of what it stated before: nothing new is claimed, nothing more often, and no new failure
appears. A relevance tactic may change the order of group members, so the part is one up to order.
-/

namespace Rationale

open List

theorem subperm_flatMap {α β : Type} {f g : α → List β} :
    ∀ {l : List α}, (∀ a ∈ l, f a <+~ g a) → l.flatMap f <+~ l.flatMap g
  | [], _ => Subperm.refl _
  | a :: l, h => by
    rw [flatMap_cons, flatMap_cons]
    exact (h a mem_cons_self).append (subperm_flatMap fun b hb => h b (mem_cons_of_mem a hb))

theorem flatMap_subperm {α β : Type} {l₁ l₂ : List α} (f : α → List β) (h : l₁ <+~ l₂) :
    l₁.flatMap f <+~ l₂.flatMap f := by
  obtain ⟨l, hperm, hsub⟩ := h
  exact ⟨l.flatMap f, hperm.flatMap_right f, hsub.flatMap f⟩

/-- A fold that at each element leaves what it has collected, or adds the element at its end, collects a
sublist. -/
theorem foldl_collects {α β γ : Type} {step : β → α → β} (collected : β → List γ) {element : α → γ}
    (hstep : ∀ b x, collected (step b x) = collected b ∨ collected (step b x) = collected b ++ [element x]) :
    ∀ (l : List α) (b : β), ∃ kept, kept <+ l.map element ∧ collected (l.foldl step b) = collected b ++ kept
  | [], b => ⟨[], nil_sublist _, (append_nil _).symm⟩
  | x :: l, b => by
    obtain ⟨kept, hsub, heq⟩ := foldl_collects collected hstep l (step b x)
    rw [foldl_cons, heq]
    rcases hstep b x with h | h
    · exact ⟨kept, hsub.cons _, by rw [h]⟩
    · exact ⟨element x :: kept, hsub.cons_cons _, by rw [h, append_assoc, singleton_append]⟩

namespace Proof

/-- What a proof states: its claims and failures. -/
def stated (p : Proof) : List Entry := p.entries.filter (!·.isAssumption)

theorem stated_eq (p : Proof) :
    p.stated = p.children.flatMap stated ++ p.own?.toList.filter (!·.isAssumption) := by
  rw [stated, entries_eq, filter_append, filter_flatMap]
  rfl

@[simp] theorem stated_conj (items : List Proof) : (conj items).stated = items.flatMap stated := by
  rw [stated_eq]
  exact append_nil _

theorem stated_normalize (p : Proof) : p.normalize.stated = p.stated := by
  rw [stated, entries_normalize, stated]

theorem mem_stated_claim {p : Proof} {c : Claim} : .claim c ∈ p.stated ↔ c ∈ p.claims := by
  rw [stated, mem_filter, mem_claims]
  exact and_iff_left rfl

theorem stated_mapChildren_subperm {f : Proof → Proof} {p : Proof}
    (h : ∀ q ∈ p.children, (f q).stated <+~ q.stated) : (mapChildren f p).stated <+~ p.stated := by
  rw [stated_eq, stated_eq p, children_mapChildren, own?_mapChildren, flatMap_map]
  exact (subperm_flatMap h).append (Subperm.refl _)

/-- A pass from the leaves up takes away if its step does. -/
theorem stated_transformUp_subperm {f : Proof → Proof} (hf : ∀ p, (f p).stated <+~ p.stated) (p : Proof) :
    (transformUp f p).stated <+~ p.stated := by
  induction p using induct_children with
  | step p ih =>
    rw [transformUp_eq]
    exact (hf _).trans (stated_mapChildren_subperm ih)

/-- A pass from the root down takes away if what it puts in place of a node does. -/
theorem stated_rewrite_subperm {f : Proof → Option Proof} (hf : ∀ p, ∀ q ∈ f p, q.stated <+~ p.stated)
    (p : Proof) : (rewrite f p).stated <+~ p.stated := by
  induction p using induct_children with
  | step p ih =>
    rw [rewrite_eq]
    cases h : f p with
    | some q => exact hf p q h
    | none => exact stated_mapChildren_subperm ih

/-! ### Steps and tactics -/

theorem stated_conj_subperm {items items' : List Proof} (h : items' <+~ items) :
    (conj items').stated <+~ (conj items).stated := by
  rw [stated_conj, stated_conj]
  exact flatMap_subperm stated h

/-- A group with other members, whose proofs are among those of the members before. -/
theorem stated_group_subperm {c : Claim} {membership : Option Proof} {members members' : List (Member Proof)}
    {n n' d : Nat} {o : Origin} (h : members'.map (·.proof) <+~ members.map (·.proof)) :
    (group c membership members' n' d o).stated <+~ (group c membership members n d o).stated := by
  rw [stated_eq, stated_eq (group c membership members n d o)]
  exact (flatMap_subperm stated ((Subperm.refl _).append h)).append (Subperm.refl _)

theorem ranked_perm (mode : RelevanceMode) (members : List (Member Proof)) : ranked mode members ~ members :=
  mergeSort_perm _ _

theorem stated_onlyRelevantStep (mode : RelevanceMode) (p : Proof) :
    (onlyRelevantStep mode p).stated <+~ p.stated := by
  unfold onlyRelevantStep
  split
  · rename_i c membership members n d o
    refine stated_group_subperm (Subperm.trans ?_ ((ranked_perm mode members).map _).subperm)
    exact ((take_sublist _ _).map _).subperm
  · exact Subperm.refl _

theorem stated_bareQuantity {p q : Proof} (h : q ∈ bareQuantity? p) : q.stated <+~ p.stated := by
  unfold bareQuantity? at h
  split at h
  · split at h
    · cases h
      rw [stated_eq (implies _ _ _ _)]
      exact (sublist_append_right _ _).subperm
    · cases h
  · cases h

theorem withoutRepeatedAssumptions_sublist (items : List Proof) : withoutRepeatedAssumptions items <+ items := by
  have step : ∀ (kept : List Proof) (p : Proof),
      (if p.isAssumption && kept.any (·.same p) then kept else kept ++ [p]) = kept ∨
        (if p.isAssumption && kept.any (·.same p) then kept else kept ++ [p]) = kept ++ [id p] := by
    intro kept p
    split
    · exact Or.inl rfl
    · exact Or.inr rfl
  obtain ⟨kept, hsub, heq⟩ := foldl_collects id step items []
  rw [map_id] at hsub
  exact (show withoutRepeatedAssumptions items = kept from heq) ▸ hsub

theorem stated_dedupStep (p : Proof) : (dedupStep p).stated <+~ p.stated := by
  unfold dedupStep
  split
  · exact stated_conj_subperm (withoutRepeatedAssumptions_sublist _).subperm
  · exact Subperm.refl _

theorem tally_collects (p : Proof) : ∀ seen : List (Proof × Nat),
    (tally p seen).map (·.1) = seen.map (·.1) ∨ (tally p seen).map (·.1) = seen.map (·.1) ++ [p]
  | [] => Or.inr rfl
  | (q, n) :: rest => by
    unfold tally
    split
    · exact Or.inl rfl
    · rcases tally_collects p rest with h | h
      · exact Or.inl (congrArg (q :: ·) h)
      · exact Or.inr (congrArg (q :: ·) h)

theorem fold_collects (x : Member Proof) : ∀ kept : List (Proof × Member Proof),
    (fold x kept).map (·.2.proof) = kept.map (·.2.proof) ∨
      (fold x kept).map (·.2.proof) = kept.map (·.2.proof) ++ [x.proof]
  | [] => Or.inr rfl
  | (key, m) :: rest => by
    unfold fold
    split
    · exact Or.inl rfl
    · rcases fold_collects x rest with h | h
      · exact Or.inl (congrArg (m.proof :: ·) h)
      · exact Or.inr (congrArg (m.proof :: ·) h)

/-- The members that stay when the most relevant ones do. -/
theorem relevant_subset (mode : RelevanceMode) (n : Nat) (members : List (Member Proof)) :
    ((ranked mode members).take n).map (·.proof) ⊆ members.map (·.proof) := fun _ hq =>
  ((ranked_perm mode members).map _).subset (((take_sublist _ _).map _).subset hq)

theorem tallied_subset (items : List Proof) : (items.foldl (fun seen p => tally p seen) []).map (·.1) ⊆ items := by
  obtain ⟨kept, hsub, heq⟩ := foldl_collects (·.map (·.1)) (fun seen p => tally_collects p seen) items []
  rw [map_id'] at hsub
  rw [heq]
  exact hsub.subset

theorem folded_subset (members : List (Member Proof)) :
    ((members.foldl (fun kept x => fold x kept) []).map (·.2)).map (·.proof) ⊆ members.map (·.proof) := by
  obtain ⟨kept, hsub, heq⟩ := foldl_collects (·.map (·.2.proof)) (fun kept x => fold_collects x kept) members []
  rw [map_map, show ((·.proof) ∘ (·.2) : Proof × Member Proof → Proof) = (·.2.proof) from rfl, heq]
  exact hsub.subset

theorem stated_repeated (x : Proof × Nat) : (repeated x).stated = x.1.stated := by
  obtain ⟨p, n⟩ := x
  rw [repeated]
  split
  · rfl
  · rfl

theorem stated_compactStep (p : Proof) : (compactStep p).stated <+~ p.stated := by
  unfold compactStep
  split
  · rename_i items
    obtain ⟨kept, hsub, heq⟩ := foldl_collects (·.map (·.1)) (fun seen p => tally_collects p seen) items []
    have counted : (conj ((items.foldl (fun seen p => tally p seen) []).map repeated)).stated
        = (conj ((items.foldl (fun seen p => tally p seen) []).map (·.1))).stated := by
      simp only [stated_conj, flatMap_map, stated_repeated]
    rw [counted, heq]
    rw [map_id'] at hsub
    exact stated_conj_subperm hsub.subperm
  · rename_i c membership members n d o
    obtain ⟨kept, hsub, heq⟩ := foldl_collects (·.map (·.2.proof)) (fun kept x => fold_collects x kept) members []
    refine stated_group_subperm ?_
    rw [map_map, show ((·.proof) ∘ (·.2) : Proof × Member Proof → Proof) = (·.2.proof) from rfl, heq]
    exact hsub.subperm
  · exact Subperm.refl _

theorem stated_skipConditionStep (exceptOn : List String) (p : Proof) :
    (skipConditionStep exceptOn p).stated <+~ p.stated := by
  unfold skipConditionStep
  split
  · rename_i owner c branch
    split
    · exact Subperm.refl _
    · rw [stated_eq (conditional owner c branch)]
      cases branch with
      | none => exact nil_subperm
      | some p =>
        simp only [children, Option.toList_some, flatMap_cons, flatMap_nil, append_nil, own?, Option.toList_none,
          filter_nil]
        exact (sublist_append_right _ _).subperm
  · exact Subperm.refl _

theorem stated_substituteQuantities (phrase : String) (p : Proof) :
    (substituteQuantities phrase p).stated <+~ p.stated := by
  have inside : ∀ p, (substituteQuantities.inside phrase p).stated <+~ p.stated := by
    intro p
    refine (stated_transformUp_subperm stated_dedupStep _).trans (stated_rewrite_subperm ?_ p)
    intro q r hr
    split at hr
    · cases hr
      exact nil_subperm
    · cases hr
  unfold substituteQuantities
  split
  · rename_i premise c d o
    split
    · rw [stated_eq (implies premise c d o)]
      exact (sublist_append_right _ _).subperm
    · exact inside _
  · exact inside _

end Proof

theorem Tactic.stated_rewrite_subperm (t : Tactic) (p : Proof) : (t.rewrite p).stated <+~ p.stated := by
  cases t with
  | onlyRelevant mode => exact Proof.stated_transformUp_subperm (Proof.stated_onlyRelevantStep mode) p
  | skipQuantitative => exact Proof.stated_rewrite_subperm (fun _ _ h => Proof.stated_bareQuantity h) p
  | substituteQuantitative phrase => exact Proof.stated_substituteQuantities phrase p
  | compactSame => exact Proof.stated_transformUp_subperm Proof.stated_compactStep p
  | skipCondition exceptOn => exact Proof.stated_transformUp_subperm (Proof.stated_skipConditionStep exceptOn) p

theorem Tactic.stated_apply_subperm (t : Tactic) (p : Proof) : (t.apply p).stated <+~ p.stated := by
  rw [Tactic.apply, Proof.stated_normalize]
  exact t.stated_rewrite_subperm p

theorem Tactic.stated_applyAll_subperm (ts : List Tactic) (p : Proof) :
    (Tactic.applyAll ts p).stated <+~ p.stated := by
  induction ts generalizing p with
  | nil => exact Subperm.refl _
  | cons t ts ih => exact (ih (t.apply p)).trans (t.stated_apply_subperm p)

end Rationale
