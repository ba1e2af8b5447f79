import Rationale.Proofs.Nodes
import Rationale.Proofs.Outlines

/-!
The normal form in one pass. The step to the normal form leaves a node with no work for it, if it left none in its
parts: what it opens, collapses or drops brings nothing new beside one another that it would open, collapse or drop
again. So a second pass changes nothing, and what a proof says is in its normal form entry by entry. What tactics leave
of a finished proof is still opened, and of such a proof the normal form only collapses conjunctions of one item.
-/

namespace Rationale

open List

namespace Proof

theorem mapChildren_of_fixed {f : Proof → Proof} {p : Proof} (h : ∀ q ∈ p.children, f q = q) :
    mapChildren f p = p := by
  have id_eq : mapChildren id p = p := by
    cases p with
    | group c membership members n d o =>
      have kept : members.map (Member.map id) = members := map_id members
      rw [mapChildren_group, kept, Option.map_id]
      rfl
    | _ => simp
  rw [mapChildren_congr (g := id) h, id_eq]

/-- A pass from the leaves up leaves a proof alone if its step leaves every node alone. -/
theorem transformUp_of_fixed {f : Proof → Proof} {p : Proof} (h : p.Every fun q => f q = q) : p.transformUp f = p := by
  induction p using induct_children with
  | step p ih =>
    obtain ⟨own, parts⟩ := every_iff.mp h
    rw [transformUp_eq, mapChildren_of_fixed fun q hq => ih q hq (parts q hq), own]

def isConj : Proof → Bool
  | .conj _ => true
  | _ => false

theorem isConj_of_isEmpty {p : Proof} (h : p.isEmpty = true) : p.isConj = true := by
  rw [eq_nothing_of_isEmpty h]
  rfl

theorem isEmpty_conj (items : List Proof) : (conj items).isEmpty = items.isEmpty := by
  cases items <;> rfl

theorem isEmpty_of_not_conj {p : Proof} (h : p.isConj = false) : p.isEmpty = false := by
  cases hp : p.isEmpty with
  | false => rfl
  | true => rw [isConj_of_isEmpty hp] at h; cases h

theorem conjuncts_of_not_conj {p : Proof} (h : p.isConj = false) : p.conjuncts = [p] := by
  cases p with
  | conj items => cases h
  | _ => rfl

/-- No conjunction stands in a conjunction, not even an empty one, and nothing rests on an empty one. -/
def Opened : Proof → Prop
  | .conj items => ∀ p ∈ items, p.isConj = false ∧ p.isEmpty = false
  | .implies p _ _ _ => p.isEmpty = false
  | .conditional _ c branch => c.isEmpty = false ∧ ∀ p ∈ branch, p.isEmpty = false
  | _ => True

/-- A node that the normal form leaves alone: an opened one that is no conjunction of one item. -/
def Normal (p : Proof) : Prop := p.Opened ∧ ∀ q, p ≠ .conj [q]

theorem Every.opened {p : Proof} (h : p.Every Normal) : p.Every Opened := h.mono fun _ => And.left

theorem filter_nonempty {items : List Proof} (h : ∀ p ∈ items, p.isEmpty = false) :
    items.filter (!·.isEmpty) = items :=
  filter_eq_self.mpr fun p hp => by rw [h p hp]; rfl

theorem flatMap_conjuncts {items : List Proof} (h : ∀ p ∈ items, p.isConj = false) :
    items.flatMap conjuncts = items := by
  rw [flatMap_congr fun p hp => conjuncts_of_not_conj (h p hp), flatMap_singleton']

/-- A conjunction of one item becomes that item. -/
def collapse : Proof → Proof
  | .conj [p] => p
  | p => p

theorem collapse_cases (p : Proof) :
    (∃ q, p = .conj [q] ∧ collapse p = q) ∨ (∀ q, p ≠ .conj [q]) ∧ collapse p = p := by
  unfold collapse
  split
  · exact .inl ⟨_, rfl, rfl⟩
  · rename_i several
    exact .inr ⟨several, rfl⟩

/-- The conjunction of items of which none is a conjunction. -/
theorem all_eq {items : List Proof} (h : ∀ p ∈ items, p.isConj = false ∧ p.isEmpty = false) :
    all items = collapse (.conj items) := by
  rw [all, all?, flatMap_conjuncts fun p hp => (h p hp).1]
  split
  · rfl
  · rfl
  · rename_i several
    rcases collapse_cases (.conj items) with ⟨q, hq, -⟩ | ⟨-, kept⟩
    · injection hq with hq
      exact absurd hq (several q)
    · exact kept.symm

theorem filter_branch {branch : Option Proof} (h : ∀ p ∈ branch, p.isEmpty = false) :
    branch.filter (!·.isEmpty) = branch := by
  cases branch with
  | none => rfl
  | some p => rw [Option.filter_some, if_pos (by rw [h p rfl]; rfl)]

/-- Of the work of the normal form, only the collapse of conjunctions is left at an opened node. -/
theorem normalStep_of_opened {p : Proof} (h : p.Opened) : normalStep p = collapse p := by
  cases p with
  | conj items => rw [normalStep, filter_nonempty fun p hp => (h p hp).2, all_eq h]
  | implies p c d o =>
    rw [normalStep, if_neg (by rw [show p.isEmpty = false from h]; decide)]
    rfl
  | conditional owner c branch =>
    rw [normalStep, filter_branch h.2, if_neg (by rw [h.1]; decide)]
    rfl
  | _ => rfl

theorem normalStep_of_normal {p : Proof} (h : p.Normal) : normalStep p = p := by
  rw [normalStep_of_opened h.1]
  rcases collapse_cases p with ⟨q, single, -⟩ | ⟨-, kept⟩
  · exact absurd single (h.2 q)
  · exact kept

theorem normal_nothing : nothing.Every Normal := by
  have normal : nothing.Normal := ⟨forall_mem_nil _, fun q hq => by cases hq⟩
  exact every_leaf normal rfl

/-- What is left of the items of a conjunction when the empty ones are dropped and the others opened. -/
theorem normal_opened_items {items : List Proof} (parts : ∀ q ∈ items, q.Every Normal) :
    ∀ q ∈ (items.filter (!·.isEmpty)).flatMap conjuncts,
      q.Every Normal ∧ q.isConj = false ∧ q.isEmpty = false := by
  intro q hq
  obtain ⟨p, hp, hq⟩ := mem_flatMap.mp hq
  have normal := parts p (mem_of_mem_filter hp)
  refine ⟨normal.conjuncts q hq, ?_⟩
  cases hc : p.isConj with
  | false =>
    rw [conjuncts_of_not_conj hc] at hq
    obtain rfl := mem_singleton.mp hq
    exact ⟨hc, isEmpty_of_not_conj hc⟩
  | true =>
    cases p with
    | conj inner => exact (normal _ (mem_preorder_self _)).1 q hq
    | _ => cases hc

theorem normal_normalStep {p : Proof} (parts : ∀ q ∈ p.children, q.Every Normal) : (normalStep p).Every Normal := by
  -- A node that is no conjunction is normal where none of its parts is empty.
  have own {q : Proof} (opened : q.Opened) (hq : q.isConj = false) : q.Normal :=
    ⟨opened, fun r hr => by rw [hr] at hq; cases hq⟩
  cases p with
  | conj items =>
    have each := normal_opened_items parts
    rw [normalStep, all, all?]
    split
    · exact normal_nothing
    · rename_i q hq
      exact (each q (hq ▸ mem_singleton_self q)).1
    · rename_i several
      refine every_iff.mpr ⟨⟨fun q hq => (each q hq).2, fun q hq => several q ?_⟩, fun q hq => (each q hq).1⟩
      injection hq
  | implies p c d o =>
    rw [normalStep]
    split
    · exact every_leaf (own trivial rfl) rfl
    · rename_i nonempty
      exact every_iff.mpr ⟨own (Bool.eq_false_iff.mpr nonempty) rfl, parts⟩
  | conditional owner c branch =>
    have left {q : Proof} (hq : q ∈ branch.filter (!·.isEmpty)) : q.Every Normal ∧ q.isEmpty = false := by
      obtain ⟨hbranch, nonempty⟩ := Option.filter_eq_some_iff.mp hq
      refine ⟨parts q (mem_cons_of_mem _ (Option.mem_toList.mpr hbranch)), ?_⟩
      simpa using nonempty
    rw [normalStep]
    split
    · cases hkept : branch.filter (!·.isEmpty) with
      | none => exact normal_nothing
      | some q => exact (left hkept).1
    · rename_i nonempty
      refine every_iff.mpr ⟨own ⟨Bool.eq_false_iff.mpr nonempty, fun q hq => (left hq).2⟩ rfl, fun q hq => ?_⟩
      rcases mem_cons.mp hq with rfl | hq
      · exact parts q mem_cons_self
      · exact (left (Option.mem_toList.mp hq)).1
  | _ => exact every_iff.mpr ⟨own trivial rfl, parts⟩

theorem normalize_eq (p : Proof) : p.normalize = normalStep (mapChildren normalize p) := transformUp_eq normalStep p

theorem every_normal_normalize (p : Proof) : p.normalize.Every Normal := every_transformUp (fun _ => normal_normalStep) p

theorem normalize_eq_self {p : Proof} : p.normalize = p ↔ p.Every Normal :=
  ⟨fun h => h ▸ every_normal_normalize p, fun h => transformUp_of_fixed (h.mono fun _ => normalStep_of_normal)⟩

/-! ### Opened proofs -/

/-- The second proof may stand where the first stands in an opened one. -/
structure Fits (p q : Proof) : Prop where
  conj : p.isConj = false → q.isConj = false
  nonempty : p.isEmpty = false → q.isEmpty = false

theorem Fits.trans {p q r : Proof} (h : p.Fits q) (h' : q.Fits r) : p.Fits r :=
  ⟨h'.conj ∘ h.conj, h'.nonempty ∘ h.nonempty⟩

theorem Fits.of_not_conj {p q : Proof} (h : q.isConj = false) : p.Fits q := ⟨fun _ => h, fun _ => isEmpty_of_not_conj h⟩

theorem isConj_mapChildren (f : Proof → Proof) (p : Proof) : (mapChildren f p).isConj = p.isConj := by
  cases p <;> simp [isConj]

theorem fits_mapChildren (f : Proof → Proof) (p : Proof) : p.Fits (mapChildren f p) := by
  refine ⟨fun h => (isConj_mapChildren f p).trans h, fun h => ?_⟩
  cases p with
  | conj items => rwa [mapChildren_conj, isEmpty_conj, isEmpty_map, ← isEmpty_conj]
  | _ => exact isEmpty_of_not_conj (isConj_mapChildren f _)

theorem every_opened_mapChildren {f : Proof → Proof} {p : Proof} (h : p.Every Opened)
    (parts : ∀ q ∈ p.children, (f q).Every Opened ∧ q.Fits (f q)) : (mapChildren f p).Every Opened := by
  have own := (every_iff.mp h).1
  refine every_iff.mpr ⟨?_, ?_⟩
  · cases p with
    | conj items =>
      rw [mapChildren_conj]
      exact forall_mem_map.mpr fun q hq =>
        ⟨(parts q hq).2.conj (own q hq).1, (parts q hq).2.nonempty (own q hq).2⟩
    | implies p c d o => exact (parts p mem_cons_self).2.nonempty own
    | conditional owner c branch =>
      rw [mapChildren_conditional]
      refine ⟨(parts c mem_cons_self).2.nonempty own.1, fun q hq => ?_⟩
      obtain ⟨r, hr, rfl⟩ := Option.map_eq_some_iff.mp hq
      exact (parts r (mem_cons_of_mem _ (Option.mem_toList.mpr hr))).2.nonempty (own.2 r hr)
    | group c membership members n d o => rw [mapChildren_group]; trivial
    | _ => trivial
  · rw [children_mapChildren]
    exact forall_mem_map.mpr fun q hq => (parts q hq).1

/-- A step that leaves opened proofs opened. -/
def Steady (f : Proof → Proof) : Prop := ∀ p, p.Every Opened → (f p).Every Opened ∧ p.Fits (f p)

theorem Steady.transformUp {f : Proof → Proof} (steady : Steady f) {p : Proof} (h : p.Every Opened) :
    (p.transformUp f).Every Opened ∧ p.Fits (p.transformUp f) := by
  induction p using induct_children with
  | step p ih =>
    obtain ⟨opened, fits⟩ := steady _ (every_opened_mapChildren h fun q hq => ih q hq ((every_iff.mp h).2 q hq))
    rw [transformUp_eq]
    exact ⟨opened, (fits_mapChildren _ p).trans fits⟩

theorem steady_normalStep : Steady normalStep := by
  intro p h
  obtain ⟨own, parts⟩ := every_iff.mp h
  rw [normalStep_of_opened own]
  rcases collapse_cases p with ⟨q, rfl, collapsed⟩ | ⟨-, kept⟩
  · rw [collapsed]
    exact ⟨parts q mem_cons_self, .of_not_conj (own q mem_cons_self).1⟩
  · rw [kept]
    exact ⟨h, id, id⟩

theorem normalize_of_opened {p : Proof} (h : p.Every Opened) : p.normalize = collapse (mapChildren normalize p) := by
  have opened : (mapChildren normalize p).Every Opened :=
    every_opened_mapChildren h fun q hq => steady_normalStep.transformUp ((every_iff.mp h).2 q hq)
  rw [normalize_eq, normalStep_of_opened (every_iff.mp opened).1]

theorem normalize_of_not_conj {p : Proof} (h : p.Every Opened) (hp : p.isConj = false) :
    p.normalize = mapChildren normalize p := by
  rw [normalize_of_opened h]
  rcases collapse_cases (mapChildren normalize p) with ⟨q, single, -⟩ | ⟨-, kept⟩
  · rw [← isConj_mapChildren normalize, single] at hp
    cases hp
  · exact kept

/-- What holds of the nodes of an opened proof with the normal forms of their parts holds of the nodes of its normal
form. -/
theorem Every.normalize_opened {P Q : Proof → Prop}
    (own : ∀ q : Proof, q.Every Opened → q.Every P → Q (mapChildren Proof.normalize q)) {p : Proof}
    (opened : p.Every Opened) (h : p.Every P) : p.normalize.Every Q := by
  induction p using induct_children with
  | step p ih =>
    have whole : (mapChildren Proof.normalize p).Every Q := by
      refine every_iff.mpr ⟨own p opened h, ?_⟩
      rw [children_mapChildren]
      exact forall_mem_map.mpr fun q hq => ih q hq ((every_iff.mp opened).2 q hq) ((every_iff.mp h).2 q hq)
    rw [normalize_of_opened opened]
    rcases collapse_cases (mapChildren Proof.normalize p) with ⟨q, single, collapsed⟩ | ⟨-, kept⟩
    · rw [collapsed]
      rw [single] at whole
      exact (every_iff.mp whole).2 q mem_cons_self
    · rw [kept]
      exact whole

/-! ### What is kept -/

/-- The texts of the assumption leaves, from left to right. -/
def assumptions (p : Proof) : List String := p.preorder.filterMap fun
  | .assumption text => some text
  | _ => none

theorem assumptions_eq (p : Proof) : p.assumptions = p.entries.filterMap fun
    | .assumption text => some text
    | _ => none := by
  rw [assumptions]
  induction p using induct_children with
  | step p ih =>
    rw [preorder_eq_children, filterMap_cons, entries_eq, filterMap_append, filterMap_flatMap, filterMap_flatMap,
      flatMap_congr ih]
    cases p with
    | assumption text => rfl
    | _ => exact (append_nil _).symm

/-- The second proof is in normal form, and says what the first says. -/
structure Settles (p q : Proof) : Prop where
  again : q.normalize = q
  claims : q.claims = p.claims
  failures : q.failureCount = p.failureCount
  assumptions : q.assumptions = p.assumptions
  normal : q.Every Normal

/-- One pass reaches the normal form, and loses nothing. -/
theorem normalize_settles (p : Proof) : p.Settles p.normalize where
  again := normalize_eq_self.mpr (every_normal_normalize p)
  claims := by rw [claims_eq, claims_eq, entries_normalize]
  failures := by rw [failureCount_eq, failureCount_eq, entries_normalize]
  assumptions := by rw [assumptions_eq, assumptions_eq, entries_normalize]
  normal := every_normal_normalize p

end Proof

end Rationale
