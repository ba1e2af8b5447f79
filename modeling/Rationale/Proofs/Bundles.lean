import Rationale.Proofs.Compaction

/-!
A compacted proof and its normal form. A compaction puts notes only at items of conjunctions, and a conjunction is left
with one item only if that has a note; so the normal form brings such an item out of its conjunction, and changes
nothing else. That is undone by putting every note that stands elsewhere back into a conjunction of its own. Two parts
are therefore the same in the normal form only if they were before, with their labels masked or not, and a second
compaction finds nothing to merge.
-/

namespace Rationale

open List

namespace Proof

/-- Notes stand only at items of conjunctions, and an item alone in one has a note. -/
def Noting : Proof → Prop
  | .conj items => ∀ p, items = [p] → p.isAnnotated = true
  | p => ∀ q ∈ p.children, q.isAnnotated = false

theorem Noting.parts {p : Proof} (h : p.Noting) (hp : p.isConj = false) : ∀ q ∈ p.children, q.isAnnotated = false := by
  cases p with
  | conj items => cases hp
  | _ => exact h

/-- A note in a conjunction of its own, and any other proof as it is. -/
def bundle (p : Proof) : Proof := if p.isAnnotated then .conj [p] else p

def bundleStep : Proof → Proof
  | .conj items => .conj items
  | p => mapChildren bundle p

/-- The proof with every note that is no item put into a conjunction of its own. -/
def bundled (p : Proof) : Proof := p.transformUp bundleStep

theorem bundleStep_of_not_conj {p : Proof} (h : p.isConj = false) : bundleStep p = mapChildren bundle p := by
  cases p with
  | conj items => cases h
  | _ => rfl

theorem bundled_conj (items : List Proof) : bundled (.conj items) = .conj (items.map bundled) := by
  rw [bundled, transformUp_eq, mapChildren_conj]
  rfl

theorem bundled_of_not_conj {p : Proof} (h : p.isConj = false) : bundled p = mapChildren (bundle ∘ bundled) p := by
  rw [bundled, transformUp_eq, bundleStep_of_not_conj ((isConj_mapChildren _ p).trans h), mapChildren_mapChildren]
  rfl

theorem bundle_of_plain {p : Proof} (h : p.isAnnotated = false) : bundle p = p := if_neg (by rw [h]; decide)

theorem bundle_of_note {p : Proof} (h : p.isAnnotated = true) : bundle p = .conj [p] := if_pos h

/-- What the normal form takes out of a conjunction is put back. -/
theorem bundled_normalize {p : Proof} (opened : p.Every Opened) (noting : p.Every Noting) :
    (p.isConj = false → bundled p.normalize = p) ∧ (p.isAnnotated = false → bundle (bundled p.normalize) = p) := by
  induction p using induct_children with
  | step p ih =>
    obtain ⟨hp, openedParts⟩ := every_iff.mp opened
    obtain ⟨hn, notingParts⟩ := every_iff.mp noting
    replace ih := fun q hq => ih q hq (openedParts q hq) (notingParts q hq)
    cases hc : p.isConj with
    | false =>
      have back : bundled p.normalize = p := by
        rw [normalize_of_not_conj opened hc, bundled_of_not_conj ((isConj_mapChildren _ p).trans hc),
          mapChildren_mapChildren]
        exact mapChildren_of_fixed fun q hq => (ih q hq).2 (hn.parts hc q hq)
      refine ⟨fun _ => back, fun plain => ?_⟩
      rw [back, bundle_of_plain plain]
    | true =>
      refine ⟨fun h => (by cases h), fun _ => ?_⟩
      cases p with
      | conj items =>
        have each : ∀ q ∈ items, bundled q.normalize = q := fun q hq => (ih q hq).1 (hp q hq).1
        rw [normalize_of_opened opened, mapChildren_conj]
        rcases collapse_cases (.conj (items.map normalize)) with ⟨q, single, collapsed⟩ | ⟨-, kept⟩
        · injection single with single
          obtain ⟨r, rfl, rfl⟩ := map_eq_singleton_iff.mp single
          rw [collapsed, each r mem_cons_self, bundle_of_note (hn r rfl)]
        · rw [kept, bundled_conj, map_map, map_congr_left (f := bundled ∘ normalize) (g := id) each, map_id]
          exact bundle_of_plain rfl
      | _ => cases hc

theorem SameNode.isAnnotated {p q : Proof} (h : SameNode p q) : p.isAnnotated = q.isAnnotated := by
  cases h <;> rfl

theorem SameNode.isConj {p q : Proof} (h : SameNode p q) : p.isConj = q.isConj := by
  cases h <;> rfl

theorem same_bundle {p q : Proof} (h : p.same q = true) : (bundle p).same (bundle q) = true := by
  have alike := (same_iff.mp h).1.isAnnotated
  cases hp : p.isAnnotated with
  | true =>
    rw [bundle_of_note hp, bundle_of_note (alike ▸ hp)]
    exact same_iff.mpr ⟨.conj _ _, .cons h .nil⟩
  | false => rwa [bundle_of_plain hp, bundle_of_plain (alike ▸ hp)]

theorem same_bundled {p q : Proof} (h : p.same q = true) : p.bundled.same q.bundled = true := by
  refine same_induct (motive := fun p q => p.bundled.same q.bundled = true) h fun p q node _ parts => ?_
  have joined := node.isConj
  cases hp : p.isConj with
  | true =>
    cases node with
    | conj items items' =>
      rw [bundled_conj, bundled_conj]
      exact same_iff.mpr ⟨.conj _ _, forall₂_map_left_iff.mpr (forall₂_map_right_iff.mpr parts)⟩
    | _ => cases hp
  | false =>
    rw [bundled_of_not_conj hp, bundled_of_not_conj (joined ▸ hp)]
    refine same_iff.mpr ⟨node.mapChildren _ _, ?_⟩
    rw [children_mapChildren, children_mapChildren]
    exact forall₂_map_left_iff.mpr (forall₂_map_right_iff.mpr (parts.imp fun _ _ => same_bundle))

/-! ### Labels -/

theorem isConj_relabelStep (source target : String) (p : Proof) : (relabelStep source target p).isConj = p.isConj := by
  cases p <;> rfl

theorem isConj_relabel (source target : String) (p : Proof) : (p.relabel source target).isConj = p.isConj := by
  rw [relabel_eq, isConj_relabelStep, isConj_mapChildren]

theorem isAnnotated_relabel (source target : String) (p : Proof) :
    (p.relabel source target).isAnnotated = p.isAnnotated := by
  have own (p : Proof) : (relabelStep source target p).isAnnotated = p.isAnnotated := by cases p <;> rfl
  rw [relabel_eq, own, isAnnotated_mapChildren]

theorem relabel_conj (source target : String) (items : List Proof) :
    (conj items).relabel source target = .conj (items.map (relabel source target)) := by
  rw [relabel_eq, mapChildren_conj]
  rfl

theorem relabel_bundle (source target : String) (p : Proof) :
    (bundle p).relabel source target = bundle (p.relabel source target) := by
  cases hp : p.isAnnotated with
  | true =>
    rw [bundle_of_note hp, bundle_of_note ((isAnnotated_relabel _ _ p).trans hp), relabel_conj]
    rfl
  | false => rw [bundle_of_plain hp, bundle_of_plain ((isAnnotated_relabel _ _ p).trans hp)]

theorem relabel_bundled (source target : String) (p : Proof) :
    (bundled p).relabel source target = bundled (p.relabel source target) := by
  induction p using induct_children with
  | step p ih =>
    cases hp : p.isConj with
    | true =>
      cases p with
      | conj items =>
        rw [bundled_conj, relabel_conj, relabel_conj, bundled_conj, map_map, map_map]
        exact congrArg conj (map_congr_left ih)
      | _ => cases hp
    | false =>
      have parts : mapChildren (relabel source target ∘ (bundle ∘ bundled)) p
          = mapChildren ((bundle ∘ bundled) ∘ relabel source target) p :=
        mapChildren_congr fun q hq => by
          rw [Function.comp_apply, Function.comp_apply, relabel_bundle, ih q hq]
          rfl
      rw [bundled_of_not_conj hp, bundled_of_not_conj ((isConj_relabel _ _ p).trans hp), relabel_eq, relabel_eq,
        ← natural_relabelStep, mapChildren_mapChildren, mapChildren_mapChildren, parts]

theorem maskedProof_map {f : Proof → Proof}
    (commutes : ∀ source target p, (f p).relabel source target = f (p.relabel source target)) (x : Member Proof) :
    maskedProof (x.map f) = f (maskedProof x) := by
  cases hlabels : x.labels with
  | nil => rw [maskedProof_of_unlabelled hlabels, maskedProof_of_unlabelled (x := x.map f) hlabels]; rfl
  | cons label rest =>
    have own : label ∈ x.labels.head? := by rw [hlabels]; rfl
    rw [maskedProof_of_head own, maskedProof_of_head (x := x.map f) own]
    exact commutes label mask x.proof

/-- The node holds nothing that a compaction merges. -/
def Apart : Proof → Prop
  | .conj items => items.Pairwise fun p q => p.same q = false
  | .group _ _ members _ _ _ => members.Pairwise fun x y => alikeMembers x y = false
  | _ => True

theorem compactStep_of_apart {p : Proof} (h : p.Apart) : compactStep p = p := by
  cases p with
  | conj items =>
    rw [compactStep_conj, itemBatches, batches_of_apart h, map_map]
    exact congrArg conj (map_id items)
  | group c membership members n d o =>
    have kept : (merged ∘ fun x => ⟨x, []⟩) = (id : Member Proof → Member Proof) := funext fun x => by
      rw [Function.comp_apply, merged, Batch.all, labels_cons, labels_nil, append_nil]
      rfl
    rw [compactStep_group, memberBatches, batches_of_apart h, map_map, kept, map_id]
  | _ => rfl

theorem apart_normalize {p : Proof} (opened : p.Every Opened) (h : p.Every fun q => q.Apart ∧ q.Noting) :
    (mapChildren normalize p).Apart := by
  obtain ⟨⟨apart, noting⟩, parts⟩ := every_iff.mp h
  obtain ⟨hp, openedParts⟩ := every_iff.mp opened
  -- What is the same in the normal form was the same before, since the parts can be got back from it.
  have back (q : Proof) (hq : q ∈ p.children) :=
    bundled_normalize (openedParts q hq) ((parts q hq).mono fun _ => And.right)
  cases p with
  | conj items =>
    rw [mapChildren_conj]
    refine pairwise_map.mpr (apart.imp_of_mem fun {q r} hq hr different => Bool.eq_false_iff.mpr fun same => ?_)
    have before := same_bundled same
    rw [(back q hq).1 (hp q hq).1, (back r hr).1 (hp r hr).1, different] at before
    cases before
  | group c membership members n d o =>
    have commutes (source target : String) (q : Proof) :
        ((bundle ∘ bundled) q).relabel source target = (bundle ∘ bundled) (q.relabel source target) := by
      rw [Function.comp_apply, relabel_bundle, relabel_bundled]
      rfl
    have restored {x : Member Proof} (hx : x ∈ members) :
        maskedProof x = bundle (bundled (maskedProof (x.map normalize))) := by
      have part : x.proof ∈ (group c membership members n d o).children :=
        mem_append_right _ (mem_map_of_mem hx)
      have whole : (x.map normalize).map (bundle ∘ bundled) = x := by
        simp only [Member.map, Function.comp_apply, (back x.proof part).2 (noting x.proof part)]
      have masked := maskedProof_map commutes (x.map normalize)
      rwa [whole] at masked
    rw [mapChildren_group]
    refine pairwise_map.mpr (apart.imp_of_mem fun {x y} hx hy different => Bool.eq_false_iff.mpr fun same => ?_)
    have before := same_bundle (same_bundled same)
    rw [← restored hx, ← restored hy] at before
    rw [alikeMembers, before] at different
    cases different
  | _ => trivial

/-! ### Compacted proofs -/

theorem every_opened_noted {b : Batch Proof} (h : b.first.Every Opened) (single : b.first.isConj = false) :
    (noted b).Every Opened ∧ (noted b).isConj = false := by
  rcases noted_cases b with ⟨-, eq⟩ | ⟨-, eq⟩
  · rw [eq]
    exact ⟨every_iff.mpr ⟨trivial, forall_mem_singleton.mpr h⟩, rfl⟩
  · rw [eq]
    exact ⟨h, single⟩

theorem steady_compactStep : Steady compactStep := by
  intro p h
  obtain ⟨own, parts⟩ := every_iff.mp h
  cases p with
  | conj items =>
    have each : ∀ b ∈ itemBatches items, (noted b).Every Opened ∧ (noted b).isConj = false := fun b hb =>
      every_opened_noted (parts _ (first_mem hb)) (own _ (first_mem hb)).1
    rw [compactStep_conj]
    refine ⟨every_iff.mpr ⟨forall_mem_map.mpr fun b hb => ?_, forall_mem_map.mpr fun b hb => (each b hb).1⟩, ?_⟩
    · exact ⟨(each b hb).2, isEmpty_of_not_conj (each b hb).2⟩
    · refine ⟨fun joined => (by cases joined), fun nonempty => ?_⟩
      rw [isEmpty_conj, isEmpty_eq_false_iff_exists_mem] at nonempty ⊢
      obtain ⟨p, hp⟩ := nonempty
      obtain ⟨b, hb, -⟩ := mem_flatMap.mp ((batches_perm same items).symm.subset hp)
      exact ⟨noted b, mem_map_of_mem hb⟩
  | group c membership members n d o =>
    exact ⟨every_group trivial (folded_subset members) parts, .of_not_conj rfl⟩
  | _ => exact ⟨h, .of_not_conj rfl⟩

theorem every_apart_compactStep {p : Proof} (several : ∀ q, p ≠ .conj [q])
    (plain : ∀ q ∈ p.children, q.isAnnotated = false)
    (parts : ∀ q ∈ p.children, q.Every fun r => r.Apart ∧ r.Noting) :
    (compactStep p).Every fun r => r.Apart ∧ r.Noting := by
  cases p with
  | conj items =>
    rw [compactStep_conj]
    refine every_iff.mpr ⟨⟨(gathers_items plain).different.imp And.left, fun q single => ?_⟩, ?_⟩
    -- Several items become one only if they were all the same, and then it has a note.
    · obtain ⟨b, hb, rfl⟩ := map_eq_singleton_iff.mp single
      have whole := batches_perm same items
      rw [show batches same items = [b] from hb, flatMap_singleton] at whole
      rcases noted_cases b with ⟨-, eq⟩ | ⟨single, -⟩
      · rw [eq]
        rfl
      · rw [Batch.all, single] at whole
        exact absurd (congrArg conj (perm_singleton.mp whole.symm)) (several b.first)
    · refine forall_mem_map.mpr fun b hb => ?_
      have part := parts _ (first_mem hb)
      rcases noted_cases b with ⟨-, eq⟩ | ⟨-, eq⟩
      · have noting : (noted b).Noting := by
          rw [eq]
          exact forall_mem_singleton.mpr (plain _ (first_mem hb))
        rw [eq] at noting ⊢
        exact every_iff.mpr ⟨⟨trivial, noting⟩, forall_mem_singleton.mpr part⟩
      · rw [eq]
        exact part
  | group c membership members n d o =>
    have sub : (compactStep (.group c membership members n d o)).children
        ⊆ (group c membership members n d o).children :=
      append_subset.mpr ⟨subset_append_left _ _, Subset.trans (folded_subset members) (subset_append_right _ _)⟩
    have noting : (compactStep (.group c membership members n d o)).Noting := fun q hq => plain q (sub hq)
    refine every_iff.mpr ⟨⟨?_, noting⟩, fun q hq => parts q (sub hq)⟩
    rw [compactStep_group]
    exact apart_merged members
  | _ => exact every_iff.mpr ⟨⟨trivial, plain⟩, parts⟩

theorem every_apart_compact {p : Proof} (normal : p.Every Normal) (plain : p.Every fun q => q.isAnnotated = false) :
    (p.transformUp compactStep).Every fun q => q.Apart ∧ q.Noting := by
  induction p using induct_children with
  | step p ih =>
    obtain ⟨⟨-, several⟩, normalParts⟩ := every_iff.mp normal
    obtain ⟨-, plainParts⟩ := every_iff.mp plain
    rw [transformUp_eq]
    refine every_apart_compactStep ?_ ?_ ?_
    · intro q single
      cases p with
      | conj items =>
        rw [mapChildren_conj] at single
        injection single with single
        obtain ⟨r, rfl, -⟩ := map_eq_singleton_iff.mp single
        exact several r rfl
      | _ => simp at single
    · rw [children_mapChildren]
      refine forall_mem_map.mpr fun q hq => ?_
      rw [isAnnotated_compact]
      exact (every_iff.mp (plainParts q hq)).1
    · rw [children_mapChildren]
      exact forall_mem_map.mpr fun q hq => ih q hq (normalParts q hq) (plainParts q hq)

/-- A second compaction finds nothing to merge in a finished proof that was compacted. -/
theorem every_apart_normalize {p : Proof} (normal : p.Every Normal) (plain : p.Every fun q => q.isAnnotated = false) :
    (p.transformUp compactStep).normalize.Every Apart :=
  Every.normalize_opened (fun _ => apart_normalize) (steady_compactStep.transformUp normal.opened).1
    (every_apart_compact normal plain)

end Proof

end Rationale
