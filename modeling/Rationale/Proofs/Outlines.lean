import Mathlib.Data.List.Basic
import Rationale.Proofs.Passes
import Rationale.Tactic

/-!
Outlines. One proof outlines another if the other says all it says and may say more in place of its placeholders, its
assumptions and its failures. So that a proof and one it outlines can be rewritten together, what is drawn from a
premise in the one must be drawn from a premise in the other, and the two must lose a premise together, whichever
conditions are left out: what remains of a proof without some of its conditions is counted first.
-/

namespace Rationale

open List

theorem any_congr_mem {α : Type} {p q : α → Bool} : ∀ {l : List α}, (∀ a ∈ l, p a = q a) → l.any p = l.any q
  | [], _ => rfl
  | a :: l, h => by
    rw [any_cons, any_cons, h a mem_cons_self, any_congr_mem fun b hb => h b (mem_cons_of_mem a hb)]

namespace Proof

theorem getD_filter (o : Option Proof) : (o.filter (!·.isEmpty)).getD nothing = o.getD nothing := by
  cases o with
  | none => rfl
  | some p =>
    cases h : p.isEmpty with
    | true =>
      rw [eq_nothing_of_isEmpty h]
      rfl
    | false => rw [Option.filter_some, if_pos (by rw [h]; rfl)]

theorem getD_map {f : Proof → Proof} (nothing_eq : f nothing = nothing) (o : Option Proof) :
    (o.map f).getD nothing = f (o.getD nothing) := by
  cases o with
  | none => exact nothing_eq.symm
  | some p => rfl

mutual

/-- The items of a conjunction, of the conjunctions among them, and so on; any other proof is its own only part. -/
def parts : Proof → List Proof
  | .conj items => partsOfAll items
  | p => [p]

def partsOfAll : List Proof → List Proof
  | [] => []
  | p :: rest => p.parts ++ partsOfAll rest

end

theorem itemwise_parts : Itemwise parts := fun items => by
  rw [parts]
  induction items with
  | nil => rfl
  | cons p rest ih => rw [partsOfAll, ih, flatMap_cons]

theorem mem_parts_conj {items : List Proof} {x : Proof} : x ∈ (conj items).parts ↔ ∃ p ∈ items, x ∈ p.parts := by
  rw [itemwise_parts, mem_flatMap]

theorem claims_conditional (owner : String) (c : Proof) (branch : Option Proof) :
    (conditional owner c branch).claims = c.claims ++ (branch.getD nothing).claims := by
  cases branch <;> rfl

theorem claims_group (c : Claim) (membership : Option Proof) (members : List (Member Proof)) (n d : Nat) (o : Origin) :
    (group c membership members n d o).claims
      = (membership.getD nothing).claims ++ members.flatMap (·.proof.claims) ++ [c] := by
  rw [← claimsOfMembers_eq]
  cases membership <;> rfl

theorem claims_of_mem_parts {p x : Proof} (h : x ∈ p.parts) : x.claims ⊆ p.claims := by
  induction p with
  | conj items ih =>
    obtain ⟨p, hp, hx⟩ := mem_parts_conj.mp h
    rw [claims, claimsOfAll_eq]
    exact fun c hc => mem_flatMap.mpr ⟨p, hp, ih p hp hx hc⟩
  | _ =>
    obtain rfl := mem_singleton.mp h
    exact fun _ hc => hc

/-- The parts of the one are among the parts of the other, assumptions apart. -/
def Covers (q p : Proof) : Prop := ∀ x ∈ p.parts, x.isAssumption = false → x ∈ q.parts

theorem Covers.refl (p : Proof) : p.Covers p := fun _ hx _ => hx

theorem Covers.trans {p q r : Proof} (h : r.Covers q) (h' : q.Covers p) : r.Covers p :=
  fun x hx hplain => h x (h' x hx hplain) hplain

theorem covers_conj {items : List Proof} {p : Proof} (h : p ∈ items) : (conj items).Covers p :=
  fun _ hx _ => mem_parts_conj.mpr ⟨p, h, hx⟩

theorem covers_all {items : List Proof} {p : Proof} (h : p ∈ items) : (all items).Covers p := fun _ hx _ => by
  rw [itemwise_parts.all]
  exact mem_flatMap.mpr ⟨p, h, hx⟩

/-! ### What remains -/

mutual

/-- Whether something is left of a proof when of its conditionals only those of the kept owners keep their condition. -/
def remains (keep : String → Bool) : Proof → Bool
  | .conj items => someRemains keep items
  | .conditional owner c branch =>
    keep owner && c.remains keep || (match branch with
      | none => false
      | some p => p.remains keep)
  | _ => true

def someRemains (keep : String → Bool) : List Proof → Bool
  | [] => false
  | p :: rest => p.remains keep || someRemains keep rest

end

section Remains
variable {keep : String → Bool}

theorem remains_conj (items : List Proof) : (conj items).remains keep = items.any (remains keep) := by
  rw [remains]
  induction items with
  | nil => rfl
  | cons p rest ih => rw [someRemains, ih, any_cons]

theorem remains_conditional (owner : String) (c : Proof) (branch : Option Proof) :
    (conditional owner c branch).remains keep
      = (keep owner && c.remains keep || (branch.getD nothing).remains keep) := by
  cases branch <;> rfl

theorem any_remains (o : Option Proof) : o.any (remains keep) = (o.getD nothing).remains keep := by
  cases o <;> rfl

theorem remains_of_isEmpty {p : Proof} (h : p.isEmpty = true) : p.remains keep = false := by
  rw [eq_nothing_of_isEmpty h]
  rfl

theorem any_remains_all? (items : List Proof) : (all? items).any (remains keep) = items.any (remains keep) := by
  have opened : (items.flatMap conjuncts).any (remains keep) = items.any (remains keep) := by
    rw [any_flatMap]
    refine congrArg items.any (funext fun p => ?_)
    cases p with
    | conj items => exact (remains_conj items).symm
    | _ => exact Bool.or_false _
  unfold all?
  rw [← opened]
  split
  · rename_i hnil
    rw [hnil]
    rfl
  · rename_i p hone
    rw [hone]
    exact (Bool.or_false _).symm
  · exact remains_conj _

theorem remains_all (items : List Proof) : (all items).remains keep = items.any (remains keep) := by
  rw [all, ← any_remains, any_remains_all?]

theorem remains_mapChildren {f : Proof → Proof} {p : Proof}
    (h : ∀ q ∈ p.children, (f q).remains keep = q.remains keep) : (mapChildren f p).remains keep = p.remains keep := by
  cases p with
  | conj items =>
    rw [mapChildren_conj, remains_conj, remains_conj, any_map]
    exact any_congr_mem h
  | conditional owner c branch =>
    rw [mapChildren_conditional, remains_conditional, remains_conditional, h c mem_cons_self]
    cases branch with
    | none => rfl
    | some p => exact congrArg _ (h p (mem_cons_of_mem _ mem_cons_self))
  | _ => simp [remains]

/-- What is left stays if each step leaves it. -/
theorem remains_transformUp {f : Proof → Proof} (hf : ∀ p, (f p).remains keep = p.remains keep) (p : Proof) :
    (transformUp f p).remains keep = p.remains keep := by
  induction p using induct_children with
  | step p ih => rw [transformUp_eq, hf, remains_mapChildren ih]

theorem remains_normalStep (p : Proof) : (normalStep p).remains keep = p.remains keep := by
  cases p with
  | conj items =>
    rw [normalStep, remains_all, remains_conj, any_filter]
    refine any_congr_mem fun p _ => ?_
    cases h : p.isEmpty with
    | true => exact (remains_of_isEmpty h).symm
    | false => exact Bool.true_and _
  | implies p c d o =>
    rw [normalStep]
    split <;> rfl
  | conditional owner c branch =>
    rw [normalStep, remains_conditional]
    split
    · rename_i h
      rw [getD_filter, remains_of_isEmpty h, Bool.and_false, Bool.false_or]
    · rw [remains_conditional, getD_filter]
  | _ => rfl

theorem remains_normalize (p : Proof) : p.normalize.remains keep = p.remains keep :=
  remains_transformUp remains_normalStep p

/-- A condition that is left out is like one whose owner is not kept. -/
theorem remains_skipCondition (exceptOn : List String) (p : Proof) :
    (p.transformUp (skipConditionStep exceptOn)).remains keep
      = p.remains fun owner => keep owner && exceptOn.contains owner := by
  induction p with
  | conj items ih =>
    rw [transformUp_conj, remains_conj]
    change (conj (items.map _)).remains keep = _
    rw [remains_conj, any_map]
    exact any_congr_mem ih
  | conditional owner c branch hc hb =>
    have left : ((branch.map (transformUp (skipConditionStep exceptOn))).getD nothing).remains keep
        = (branch.getD nothing).remains fun owner => keep owner && exceptOn.contains owner := by
      cases branch with
      | none => rfl
      | some p => exact hb p rfl
    rw [transformUp_conditional, skipConditionStep, remains_conditional]
    cases excepted : exceptOn.contains owner with
    | true => rw [if_pos rfl, remains_conditional, hc, left, Bool.and_true]
    | false => rw [if_neg Bool.false_ne_true, left, Bool.and_false, Bool.false_and, Bool.false_or]
  | group c membership members n d o =>
    rw [transformUp_group]
    rfl
  | _ => rfl

end Remains

/-- The normal form is empty if nothing remains where all conditions are kept. -/
theorem isEmpty_normalize (p : Proof) : p.normalize.isEmpty = !p.remains fun _ => true := by
  suffices h : p.normalize.isEmpty = true ∨ (p.normalize.remains fun _ => true) = true by
    rw [← p.remains_normalize]
    rcases h with h | h
    · rw [h, remains_of_isEmpty h]
      rfl
    · cases hempty : p.normalize.isEmpty with
      | false => rw [h]; rfl
      | true => cases h.symm.trans (remains_of_isEmpty hempty)
  -- What is not empty is left, and what is left of a part is left of the whole.
  have left {p : Proof} (h : p.normalize.isEmpty = true ∨ (p.normalize.remains fun _ => true) = true)
      (nonempty : (!p.normalize.isEmpty) = true) : (p.normalize.remains fun _ => true) = true :=
    h.resolve_left fun h => by
      rw [h] at nonempty
      cases nonempty
  induction p with
  | conj items ih =>
    rw [normalize, transformUp_conj, normalStep]
    cases hleft : (items.map (transformUp normalStep)).filter (!·.isEmpty) with
    | nil => exact .inl rfl
    | cons q rest =>
      obtain ⟨hmem, nonempty⟩ := mem_filter.mp (hleft ▸ mem_cons_self : q ∈ _)
      obtain ⟨p, hp, rfl⟩ := mem_map.mp hmem
      rw [remains_all]
      exact .inr (any_eq_true.mpr ⟨_, mem_cons_self, left (ih p hp) nonempty⟩)
  -- Without a condition the branch is left by itself.
  | conditional owner c branch hc hb =>
    rw [normalize, transformUp_conditional, normalStep]
    split
    · rw [getD_filter, getD_map rfl]
      cases branch with
      | none => exact .inl rfl
      | some p => exact hb p rfl
    · rename_i nonempty
      rw [remains_conditional, ← normalize, left hc (by rw [normalize, Bool.eq_false_iff.mpr nonempty]; rfl)]
      exact .inr rfl
  | implies p c d o ih => exact .inr (remains_normalize _)
  | group c membership members n d o => exact .inr (remains_normalize _)
  | annotated p note => exact .inr (remains_normalize _)
  | _ => exact .inr rfl

/-- Whichever conditions are left out, something remains of both or of neither. -/
def Alike (p q : Proof) : Prop := ∀ keep, p.remains keep = q.remains keep

/-! ### Outlines -/

/-- The second proof says all that the first says, and anything in place of its placeholders, assumptions and
failures. What the first draws from a premise the second draws from a premise, and the two lose it together. -/
inductive Outlines : Proof → Proof → Prop
  | placeholder {c : Claim} {q : Proof} (unresolved : c.isUnresolved = true) : Outlines (.claim c) q
  | assumption {t : String} {q : Proof} : Outlines (.assumption t) q
  | failure {t : String} {q : Proof} : Outlines (.failure t) q
  | claim {c : Claim} {q : Proof} (part : .claim c ∈ q.parts) : Outlines (.claim c) q
  | conj {items : List Proof} {q : Proof} (each : ∀ p ∈ items, Outlines p q) : Outlines (.conj items) q
  | implies {p p' q : Proof} {c : Claim} {d : Nat} {o : Origin} (part : .implies p' c d o ∈ q.parts)
      (premise : Outlines p p') (alike : p.Alike p') : Outlines (.implies p c d o) q
  | conditional {owner : String} {c c' q : Proof} {branch branch' : Option Proof}
      (part : .conditional owner c' branch' ∈ q.parts) (condition : Outlines c c') (alike : c.Alike c')
      (selected : Outlines (branch.getD nothing) (branch'.getD nothing))
      (selectedAlike : (branch.getD nothing).Alike (branch'.getD nothing)) : Outlines (.conditional owner c branch) q
  | group {q : Proof} {c : Claim} {membership membership' : Option Proof} {members : List (Member Proof × Member Proof)}
      {n n' d : Nat} {o : Origin} (part : .group c membership' (members.map (·.2)) n' d o ∈ q.parts)
      (why : Outlines (membership.getD nothing) (membership'.getD nothing))
      (ranks : ∀ m ∈ members, m.1.relevance = m.2.relevance)
      (each : ∀ m ∈ members, Outlines m.1.proof m.2.proof) :
      Outlines (.group c membership (members.map (·.1)) n d o) q

namespace Outlines

variable {p q : Proof}

theorem mono {q' : Proof} (h : p.Outlines q) (covers : q'.Covers q) : p.Outlines q' := by
  induction h with
  | placeholder unresolved => exact .placeholder unresolved
  | assumption => exact .assumption
  | failure => exact .failure
  | claim part => exact .claim (covers _ part rfl)
  | conj each ih => exact .conj fun p hp => ih p hp covers
  | implies part premise alike => exact .implies (covers _ part rfl) premise alike
  | conditional part condition alike selected selectedAlike =>
    exact .conditional (covers _ part rfl) condition alike selected selectedAlike
  | group part why ranks each => exact .group (covers _ part rfl) why ranks each

/-- Groups with entries made of the same things outline each other if their entries do. -/
theorem group_map {α : Type} {made : List α} {f g : α → Member Proof} {c : Claim} {membership membership' : Option Proof}
    {n n' d : Nat} {o : Origin} (why : (membership.getD nothing).Outlines (membership'.getD nothing))
    (ranks : ∀ a ∈ made, (f a).relevance = (g a).relevance)
    (each : ∀ a ∈ made, (f a).proof.Outlines (g a).proof) :
    (Proof.group c membership (made.map f) n d o).Outlines (.group c membership' (made.map g) n' d o) := by
  have grouped : (Proof.group c membership ((made.map fun a => (f a, g a)).map (·.1)) n d o).Outlines
      (.group c membership' ((made.map fun a => (f a, g a)).map (·.2)) n' d o) :=
    .group mem_cons_self why (forall_mem_map.mpr ranks) (forall_mem_map.mpr each)
  rw [map_map, map_map] at grouped
  exact grouped

theorem conjuncts (h : p.Outlines q) : ∀ x ∈ p.conjuncts, x.Outlines q := by
  cases h with
  | conj each => exact each
  | placeholder unresolved => exact forall_mem_singleton.mpr (.placeholder unresolved)
  | assumption => exact forall_mem_singleton.mpr .assumption
  | failure => exact forall_mem_singleton.mpr .failure
  | claim part => exact forall_mem_singleton.mpr (.claim part)
  | implies part premise alike => exact forall_mem_singleton.mpr (.implies part premise alike)
  | conditional part condition alike selected selectedAlike =>
    exact forall_mem_singleton.mpr (.conditional part condition alike selected selectedAlike)
  | group part why ranks each => exact forall_mem_singleton.mpr (.group part why ranks each)

theorem all {items : List Proof} (each : ∀ p ∈ items, p.Outlines q) : (all items).Outlines q := by
  have opened : ∀ x ∈ items.flatMap Proof.conjuncts, x.Outlines q := fun x hx => by
    obtain ⟨p, hp, hx⟩ := mem_flatMap.mp hx
    exact (each p hp).conjuncts x hx
  unfold Proof.all all?
  split
  · exact .conj fun _ h => by cases h
  · rename_i p hone
    exact opened p (hone ▸ mem_singleton_self p)
  · exact .conj opened

/-- What is resolved in a proof is claimed in whatever it outlines. -/
theorem claims (h : p.Outlines q) {c : Claim} (hc : c ∈ p.claims) (resolved : c.isUnresolved = false) :
    c ∈ q.claims := by
  -- Where one proof outlines a part of another, what the part claims is claimed by the whole.
  induction h with
  | placeholder unresolved =>
    rw [mem_singleton.mp hc, unresolved] at resolved
    cases resolved
  | assumption => cases hc
  | failure => cases hc
  | claim part => exact claims_of_mem_parts part hc
  | conj each ih =>
    rw [Proof.claims, claimsOfAll_eq] at hc
    obtain ⟨p, hp, hc⟩ := mem_flatMap.mp hc
    exact ih p hp hc
  | implies part premise alike ih =>
    refine claims_of_mem_parts part ?_
    rw [Proof.claims] at hc ⊢
    rcases mem_append.mp hc with hc | hc
    · exact mem_append_left _ (ih hc)
    · exact mem_append_right _ hc
  | conditional part condition alike selected selectedAlike ihCondition ihSelected =>
    refine claims_of_mem_parts part ?_
    rw [claims_conditional] at hc ⊢
    rcases mem_append.mp hc with hc | hc
    · exact mem_append_left _ (ihCondition hc)
    · exact mem_append_right _ (ihSelected hc)
  | group part why ranks each ihWhy ihEach =>
    refine claims_of_mem_parts part ?_
    rw [claims_group, flatMap_map] at hc ⊢
    rcases mem_append.mp hc with hc | hc
    · refine mem_append_left _ ?_
      rcases mem_append.mp hc with hc | hc
      · exact mem_append_left _ (ihWhy hc)
      · obtain ⟨m, hm, hc⟩ := mem_flatMap.mp hc
        exact mem_append_right _ (mem_flatMap.mpr ⟨m, hm, ihEach m hm hc⟩)
    · exact mem_append_right _ hc

end Outlines

end Proof

end Rationale
