import Rationale.Proofs.Filling
import Rationale.Proofs.Tactics

/-!
The nodes of an explanation, and where they come from. Failures and comparisons with groups are the nodes that say
more than how a proof is put together; each of them is put there by a goal or by a template on its site, and tactics
put no others there. So what holds of these holds of every node of an explanation, if tactics keep it.
-/

namespace Rationale

namespace Proof

/-- Every node of the proof has the property. -/
def Every (P : Proof → Prop) (p : Proof) : Prop := ∀ q ∈ p.preorder, P q

/-- The node is neither a failure nor a comparison with a group. -/
def isPlain : Proof → Bool
  | .failure _ => false
  | .group _ _ _ _ _ _ => false
  | _ => true

variable {P Q : Proof → Prop}

theorem every_iff {p : Proof} : p.Every P ↔ P p ∧ ∀ q ∈ p.children, q.Every P := by
  unfold Every
  rw [preorder_eq_children, List.forall_mem_cons]
  refine and_congr_right fun _ => ⟨fun h q hq r hr => ?_, fun h r hr => ?_⟩
  · exact h r (List.mem_flatMap.mpr ⟨q, hq, hr⟩)
  · obtain ⟨q, hq, hr⟩ := List.mem_flatMap.mp hr
    exact h q hq r hr

theorem mem_preorder_self (p : Proof) : p ∈ p.preorder := by
  rw [preorder_eq_children]
  exact List.mem_cons_self

theorem every_leaf {p : Proof} (h : P p) (leaf : p.children = []) : p.Every P :=
  every_iff.mpr ⟨h, fun q hq => by rw [leaf] at hq; cases hq⟩

theorem Every.mono (hPQ : ∀ p, P p → Q p) {p : Proof} (h : p.Every P) : p.Every Q := fun q hq => hPQ q (h q hq)

theorem Every.conjuncts {p : Proof} (h : p.Every P) : ∀ q ∈ p.conjuncts, q.Every P := by
  cases p with
  | conj items => exact (every_iff.mp h).2
  | _ => exact fun q hq => List.mem_singleton.mp hq ▸ h

theorem every_all? (conj : ∀ items, P (.conj items)) {items : List Proof} (h : ∀ p ∈ items, p.Every P) :
    ∀ p ∈ all? items, p.Every P := by
  have opened : ∀ p ∈ items.flatMap conjuncts, p.Every P := by
    intro p hp
    obtain ⟨q, hq, hp⟩ := List.mem_flatMap.mp hp
    exact (h q hq).conjuncts p hp
  intro p hp
  unfold all? at hp
  split at hp
  · cases hp
  · rename_i q hq
    cases hp
    exact opened _ (hq ▸ List.mem_singleton_self _)
  · cases hp
    exact every_iff.mpr ⟨conj _, opened⟩

theorem every_all (conj : ∀ items, P (.conj items)) {items : List Proof} (h : ∀ p ∈ items, p.Every P) :
    (all items).Every P := by
  unfold all
  cases hall : all? items with
  | none => exact every_leaf (conj []) rfl
  | some p => exact every_all? conj h p hall

section Plain
variable (plain : ∀ p : Proof, p.isPlain = true → P p)

include plain

theorem every_plain {p : Proof} (h : p.isPlain = true) (parts : ∀ q ∈ p.children, q.Every P) : p.Every P :=
  every_iff.mpr ⟨plain p h, parts⟩

theorem every_because {premise : Option Proof} (h : ∀ p ∈ premise, p.Every P) (c : Claim) (d : Nat) (o : Origin) :
    (because premise c d o).Every P := by
  cases premise with
  | none => exact every_leaf (plain _ rfl) rfl
  | some p => exact every_plain plain rfl (List.forall_mem_singleton.mpr (h p rfl))

end Plain

/-! ### Passes -/

/-- The property does not look at the parts of a node. -/
def Blind (P : Proof → Prop) : Prop := ∀ (f : Proof → Proof) (p : Proof), P p → P (mapChildren f p)

theorem every_mapChildren (blind : Blind P) {f : Proof → Proof} {p : Proof} (h : P p)
    (parts : ∀ q ∈ p.children, (f q).Every P) : (mapChildren f p).Every P := by
  refine every_iff.mpr ⟨blind f p h, ?_⟩
  rw [children_mapChildren]
  exact List.forall_mem_map.mpr parts

theorem Every.transformUp (blind : Blind P) {f : Proof → Proof}
    (step : ∀ p, P p → (∀ q ∈ p.children, q.Every Q) → (f p).Every Q) {p : Proof} (h : p.Every P) :
    (p.transformUp f).Every Q := by
  induction p using induct_children with
  | step p ih =>
    obtain ⟨hp, hparts⟩ := every_iff.mp h
    rw [transformUp_eq]
    refine step _ (blind _ p hp) ?_
    rw [children_mapChildren]
    exact List.forall_mem_map.mpr fun q hq => ih q hq (hparts q hq)

/-- Every node of what a pass leaves has the property if a step makes it of any node whose parts are done. -/
theorem every_transformUp {f : Proof → Proof} (step : ∀ p, (∀ q ∈ p.children, q.Every Q) → (f p).Every Q)
    (p : Proof) : (p.transformUp f).Every Q :=
  Every.transformUp (P := fun _ => True) (fun _ _ _ => trivial) (fun p _ => step p) fun _ _ => trivial

theorem Every.rewrite (blind : Blind P) {f : Proof → Option Proof}
    (step : ∀ p, p.Every P → ∀ q ∈ f p, q.Every P) {p : Proof} (h : p.Every P) : (p.rewrite f).Every P := by
  induction p using induct_children with
  | step p ih =>
    obtain ⟨hp, hparts⟩ := every_iff.mp h
    rw [rewrite_eq]
    cases hf : f p with
    | some q => exact step p h q hf
    | none => exact every_mapChildren blind hp fun q hq => ih q hq (hparts q hq)

/-- The property holds of what the step to the normal form makes of a node that it does not leave alone. -/
structure Lasting (P : Proof → Prop) : Prop where
  conj : ∀ items, P (.conj items)
  claim : ∀ c, P (.claim c)
  conditional : ∀ {owner c c' branch branch'}, P (.conditional owner c branch) → P (.conditional owner c' branch')

theorem Lasting.of_plain (plain : ∀ p : Proof, p.isPlain = true → P p) : Lasting P :=
  ⟨fun _ => plain _ rfl, fun _ => plain _ rfl, fun _ => plain _ rfl⟩

theorem every_normalStep (lasting : Lasting P) {p : Proof} (h : P p) (parts : ∀ q ∈ p.children, q.Every P) :
    (normalStep p).Every P := by
  have same : p.Every P := every_iff.mpr ⟨h, parts⟩
  cases p with
  | conj items => exact every_all lasting.conj fun q hq => parts q (List.mem_filter.mp hq).1
  | implies p c d o =>
    rw [normalStep]
    split
    · exact every_leaf (lasting.claim c) rfl
    · exact same
  | conditional owner c branch =>
    have hbranch : ∀ q ∈ branch.filter (!·.isEmpty), q.Every P := by
      intro q hq
      exact parts q (List.mem_cons_of_mem _ (Option.mem_toList.mpr (Option.eq_some_of_filter_eq_some hq)))
    rw [normalStep]
    split
    · cases hkept : branch.filter (!·.isEmpty) with
      | none => exact every_leaf (lasting.conj []) rfl
      | some q => exact hbranch q hkept
    · refine every_iff.mpr ⟨lasting.conditional h, List.forall_mem_cons.mpr ⟨parts c List.mem_cons_self, ?_⟩⟩
      exact fun q hq => hbranch q (Option.mem_toList.mp hq)
  | _ => exact same

theorem Every.normalize (lasting : Lasting P) (blind : Blind P) {p : Proof} (h : p.Every P) : p.normalize.Every P :=
  Every.transformUp blind (fun _ => every_normalStep lasting) h

section Steps
variable (plain : ∀ p : Proof, p.isPlain = true → P p) (blind : Blind P)

include plain

theorem every_skipConditionStep (exceptOn : List String) {p : Proof} (h : P p)
    (parts : ∀ q ∈ p.children, q.Every P) : (skipConditionStep exceptOn p).Every P := by
  unfold skipConditionStep
  split
  · rename_i owner c branch
    split
    · exact every_iff.mpr ⟨h, parts⟩
    · cases branch with
      | none => exact every_leaf (plain _ rfl) rfl
      | some q => exact parts q (List.mem_cons_of_mem _ List.mem_cons_self)
  · exact every_iff.mpr ⟨h, parts⟩

omit plain in
theorem every_dedupStep (conj : ∀ items, P (.conj items)) {p : Proof} (h : P p) (parts : ∀ q ∈ p.children, q.Every P) :
    (dedupStep p).Every P := by
  unfold dedupStep
  split
  · refine every_iff.mpr ⟨conj _, fun q hq => parts q ((withoutRepeatedAssumptions_sublist _).subset hq)⟩
  · exact every_iff.mpr ⟨h, parts⟩

theorem every_bareQuantity {p q : Proof} (hq : q ∈ bareQuantity? p) : q.Every P := by
  unfold bareQuantity? at hq
  split at hq
  · split at hq
    · cases hq
      exact every_leaf (plain _ rfl) rfl
    · cases hq
  · cases hq

theorem every_repeated {x : Proof × Nat} (h : x.1.Every P) : (repeated x).Every P := by
  obtain ⟨p, n⟩ := x
  rw [repeated]
  split
  · exact every_plain plain rfl (List.forall_mem_singleton.mpr h)
  · exact h

omit plain in
/-- A group with members that come of the members before, with their proofs. -/
theorem every_group {c : Claim} {membership : Option Proof} {members members' : List (Member Proof)}
    {n n' d : Nat} {o : Origin} (h : P (.group c membership members' n' d o))
    (sub : members'.map (·.proof) ⊆ members.map (·.proof))
    (parts : ∀ q ∈ (group c membership members n d o).children, q.Every P) :
    (group c membership members' n' d o).Every P := by
  refine every_iff.mpr ⟨h, fun q hq => ?_⟩
  rcases List.mem_append.mp hq with hq | hq
  · exact parts q (List.mem_append_left _ hq)
  · exact parts q (List.mem_append_right _ (sub hq))

theorem every_onlyRelevantStep (mode : RelevanceMode) {p : Proof}
    (own : p.isPlain = false → P (onlyRelevantStep mode p)) (parts : ∀ q ∈ p.children, q.Every P) :
    (onlyRelevantStep mode p).Every P := by
  cases p with
  | group c membership members n d o => exact every_group (own rfl) (relevant_subset _ _ _) parts
  | failure text => exact every_leaf (own rfl) rfl
  | _ => exact every_plain plain rfl parts

theorem every_compactStep {p : Proof} (own : p.isPlain = false → P (compactStep p))
    (parts : ∀ q ∈ p.children, q.Every P) : (compactStep p).Every P := by
  cases p with
  | conj items =>
    refine every_plain plain rfl (List.forall_mem_map.mpr fun x hx => every_repeated plain (parts _ ?_))
    exact tallied_subset items (List.mem_map_of_mem hx)
  | group c membership members n d o => exact every_group (own rfl) (folded_subset members) parts
  | failure text => exact every_leaf (own rfl) rfl
  | _ => exact every_plain plain rfl parts

include blind

theorem Every.substituteQuantities (phrase : String) {p : Proof} (h : p.Every P) :
    (p.substituteQuantities phrase).Every P := by
  have inside : ∀ p : Proof, p.Every P → (substituteQuantities.inside phrase p).Every P := by
    intro p h
    refine Every.transformUp blind (fun _ => every_dedupStep fun _ => plain _ rfl) ?_
    refine Every.rewrite blind (fun q _ r hr => ?_) h
    split at hr
    · cases hr
      exact every_leaf (plain _ rfl) rfl
    · cases hr
  unfold Proof.substituteQuantities
  split
  · split
    · refine every_plain plain rfl (List.forall_mem_singleton.mpr ?_)
      exact every_leaf (plain _ rfl) rfl
    · exact inside _ h
  · exact inside _ h

end Steps

end Proof

/-- What a tactic makes of a failure or of a comparison with a group. -/
def Tactic.touch : Tactic → Proof → Proof
  | .onlyRelevant mode, p => Proof.onlyRelevantStep mode p
  | .compactSame, p => Proof.compactStep p
  | _, p => p

/-- The nodes that a tactic leaves have a property if it makes that of the nodes before. -/
theorem Tactic.every_apply (t : Tactic) {P Q : Proof → Prop} (plain : ∀ p : Proof, p.isPlain = true → Q p)
    (blind : Proof.Blind P) (blind' : Proof.Blind Q) (touched : ∀ p : Proof, p.isPlain = false → P p → Q (t.touch p))
    {p : Proof} (h : p.Every P) : (t.apply p).Every Q := by
  have normal {p : Proof} (h : p.Every Q) : p.normalize.Every Q := h.normalize (.of_plain plain) blind'
  -- Tactics that do not touch such nodes leave them as they are.
  have kept (untouched : ∀ p, t.touch p = p) : p.Every Q := by
    refine h.mono fun q hq => ?_
    cases hplain : q.isPlain with
    | true => exact plain q hplain
    | false => exact untouched q ▸ touched q hplain hq
  refine normal ?_
  cases t with
  | onlyRelevant mode =>
    exact Proof.Every.transformUp blind
      (fun q hq => Proof.every_onlyRelevantStep plain mode fun hplain => touched q hplain hq) h
  | skipQuantitative =>
    exact Proof.Every.rewrite blind' (fun _ _ _ => Proof.every_bareQuantity plain) (kept fun _ => rfl)
  | substituteQuantitative phrase => exact Proof.Every.substituteQuantities plain blind' phrase (kept fun _ => rfl)
  | compactSame =>
    exact Proof.Every.transformUp blind
      (fun q hq => Proof.every_compactStep plain fun hplain => touched q hplain hq) h
  | skipCondition exceptOn =>
    exact Proof.Every.transformUp blind' (fun _ => Proof.every_skipConditionStep plain exceptOn) (kept fun _ => rfl)

theorem Tactic.every_applyAll {P : Proof → Prop} (plain : ∀ p : Proof, p.isPlain = true → P p)
    (blind : Proof.Blind P) {ts : List Tactic}
    (touched : ∀ t ∈ ts, ∀ p : Proof, p.isPlain = false → P p → P (t.touch p)) {p : Proof} (h : p.Every P) :
    (Tactic.applyAll ts p).Every P := by
  induction ts generalizing p with
  | nil => exact h
  | cons t ts ih =>
    exact ih (fun t' ht' => touched t' (List.mem_cons_of_mem _ ht'))
      (t.every_apply plain blind blind (touched t List.mem_cons_self) h)

/-! ### Failures -/

namespace Proof

variable {R : Proof → Prop}

theorem plain_failures (p : Proof) (h : p.isPlain = true) : p.isFailure = true → R p := by
  intro hf
  cases p with
  | failure text => cases h
  | _ => cases hf

theorem blind_failures : Blind fun p => p.isFailure = true → R p := by
  intro f p h hf
  cases p with
  | failure text => exact h rfl
  | _ => simp [isFailure] at hf

end Proof

/-- Tactics put no failures into a proof. -/
theorem Tactic.failures_applyAll {R : Proof → Prop} (ts : List Tactic) {p : Proof}
    (h : p.Every fun q => q.isFailure = true → R q) :
    (Tactic.applyAll ts p).Every fun q => q.isFailure = true → R q := by
  refine Tactic.every_applyAll Proof.plain_failures Proof.blind_failures (fun t _ q _ hq hf => ?_) h
  cases q with
  | failure text => cases t <;> exact hq rfl
  | _ => cases t <;> first | exact hq hf | cases hf

end Rationale
