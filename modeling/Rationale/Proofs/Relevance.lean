import Rationale.Proofs.NormalForms

/-!
Which members of a group comparison stay. A relevance tactic puts the members in the order of their values, stably, and
keeps the first of them: the order is total and transitive in both modes, with the members without a value at its end.
So no member that is left out is more extreme than one that stays, at whatever depth the comparison stands.
-/

namespace Rationale

open List

theorem Number.isLE_compareTotal {x y : Number} : (x.compareTotal y).isLE = true ↔ x.rank ≤ y.rank := by
  rw [compareTotal, Int.isLE_compare]

theorem Number.compareTotal_eq_lt {x y : Number} : x.compareTotal y = .lt ↔ x.rank < y.rank :=
  Int.compare_eq_lt

namespace RelevanceMode

/-- The first value is strictly more extreme than the second. -/
def Outranks : RelevanceMode → Number → Number → Prop
  | .top _, x, y => y.compareTotal x = .lt
  | .bottom _, x, y => x.compareTotal y = .lt

theorem mayPrecede_trans (mode : RelevanceMode) (x y z : Option Number) (h : mode.mayPrecede x y = true)
    (h' : mode.mayPrecede y z = true) : mode.mayPrecede x z = true := by
  cases z with
  | none => cases mode <;> rfl
  | some z =>
    cases y with
    | none => cases mode <;> cases h'
    | some y =>
      cases x with
      | none => cases mode <;> cases h
      | some x =>
        cases mode with
        | top n =>
          have hzy : z.rank ≤ y.rank := Number.isLE_compareTotal.mp h'
          have hyx : y.rank ≤ x.rank := Number.isLE_compareTotal.mp h
          exact Number.isLE_compareTotal.mpr (Int.le_trans hzy hyx)
        | bottom n =>
          have hxy : x.rank ≤ y.rank := Number.isLE_compareTotal.mp h
          have hyz : y.rank ≤ z.rank := Number.isLE_compareTotal.mp h'
          exact Number.isLE_compareTotal.mpr (Int.le_trans hxy hyz)

theorem mayPrecede_total (mode : RelevanceMode) (x y : Option Number) :
    (mode.mayPrecede x y || mode.mayPrecede y x) = true := by
  rw [Bool.or_eq_true]
  cases y with
  | none => exact .inl (by cases mode <;> rfl)
  | some y =>
    cases x with
    | none => exact .inr (by cases mode <;> rfl)
    | some x =>
      cases mode with
      | top n => exact (Int.le_total y.rank x.rank).imp Number.isLE_compareTotal.mpr Number.isLE_compareTotal.mpr
      | bottom n => exact (Int.le_total x.rank y.rank).imp Number.isLE_compareTotal.mpr Number.isLE_compareTotal.mpr

theorem mayPrecede_refl (mode : RelevanceMode) (x : Option Number) : mode.mayPrecede x x = true :=
  (Bool.or_self _).symm.trans (mode.mayPrecede_total x x)

theorem not_outranks {mode : RelevanceMode} {x y : Number} (h : mode.mayPrecede (some x) (some y) = true) :
    ¬mode.Outranks y x := by
  intro outranks
  cases mode with
  | top n => exact absurd (Number.isLE_compareTotal.mp h) (Int.not_le.mpr (Number.compareTotal_eq_lt.mp outranks))
  | bottom n => exact absurd (Number.isLE_compareTotal.mp h) (Int.not_le.mpr (Number.compareTotal_eq_lt.mp outranks))

end RelevanceMode

namespace Proof

section Ranked
variable (mode : RelevanceMode) (members : List (Member Proof))

theorem pairwise_ranked :
    (ranked mode members).Pairwise fun x y => mode.mayPrecede x.relevance y.relevance = true :=
  pairwise_mergeSort (fun x y z => mode.mayPrecede_trans x.relevance y.relevance z.relevance)
    (fun x y => mode.mayPrecede_total x.relevance y.relevance) members

/-- Members of the same value keep their order. -/
theorem filter_ranked (value : Option Number) :
    (ranked mode members).filter (fun x => decide (x.relevance = value))
      = members.filter fun x => decide (x.relevance = value) := by
  have alike : (members.filter fun x => decide (x.relevance = value)).Pairwise fun x y =>
      mode.mayPrecede x.relevance y.relevance = true :=
    pairwise_of_forall_mem_list fun x hx y hy => by
      rw [of_decide_eq_true (mem_filter.mp hx).2, of_decide_eq_true (mem_filter.mp hy).2]
      exact mode.mayPrecede_refl value
  have sub := sublist_mergeSort (fun x y z => mode.mayPrecede_trans x.relevance y.relevance z.relevance)
    (fun x y => mode.mayPrecede_total x.relevance y.relevance) alike filter_sublist
  have kept := sub.filter fun x => decide (x.relevance = value)
  rw [filter_filter, filter_congr fun x _ => Bool.and_self _] at kept
  exact (kept.eq_of_length ((ranked_perm mode members).filter _).length_eq.symm).symm

theorem ranked_map (f : Proof → Proof) :
    ranked mode (members.map (Member.map f)) = (ranked mode members).map (Member.map f) :=
  (map_mergeSort (f := Member.map f) fun _ _ _ _ => rfl).symm

theorem ranked_of_pairwise {members : List (Member Proof)}
    (h : members.Pairwise fun x y => mode.mayPrecede x.relevance y.relevance = true) : ranked mode members = members :=
  mergeSort_of_pairwise h

end Ranked

/-! ### Selections -/

/-- What stays of the members of a comparison and what is left out. Members of the same value are taken in their
order. -/
structure Selection (mode : RelevanceMode) (members kept dropped : List (Member Proof)) : Prop where
  whole : kept ++ dropped ~ members
  count : kept.length = min mode.count members.length
  extreme : ∀ x ∈ kept, ∀ y ∈ dropped, ∀ a ∈ x.relevance, ∀ b ∈ y.relevance, ¬mode.Outranks b a
  valueless : ∀ x ∈ kept, x.relevance = none → ∀ y ∈ dropped, y.relevance = none
  stable : ∀ value, (kept ++ dropped).filter (fun x => decide (x.relevance = value))
    = members.filter fun x => decide (x.relevance = value)

theorem selection_ranked (mode : RelevanceMode) (members : List (Member Proof)) :
    Selection mode members ((ranked mode members).take mode.count) ((ranked mode members).drop mode.count) := by
  have before : ∀ x ∈ (ranked mode members).take mode.count, ∀ y ∈ (ranked mode members).drop mode.count,
      mode.mayPrecede x.relevance y.relevance = true := by
    have sorted := pairwise_ranked mode members
    rw [← take_append_drop mode.count (ranked mode members)] at sorted
    exact (pairwise_append.mp sorted).2.2
  constructor
  · rw [take_append_drop]
    exact ranked_perm mode members
  · rw [length_take, (ranked_perm mode members).length_eq]
  · intro x hx y hy a ha b hb
    have first := before x hx y hy
    rw [Option.mem_def.mp ha, Option.mem_def.mp hb] at first
    exact RelevanceMode.not_outranks first
  · intro x hx valueless y hy
    have first := before x hx y hy
    rw [valueless] at first
    cases hr : y.relevance with
    | none => rfl
    | some b => rw [hr] at first; cases mode <;> cases first
  · intro value
    rw [take_append_drop]
    exact filter_ranked mode members value

def isGroup : Proof → Bool
  | .group _ _ _ _ _ _ => true
  | _ => false

/-- What a relevance tactic makes of a node: it selects the members of a comparison with a group and counts those left
out, and takes the normal form of any other node. -/
inductive Selects (mode : RelevanceMode) : Proof → Proof → Prop
  | group {c : Claim} {membership : Option Proof} {members kept dropped : List (Member Proof)} {n d : Nat} {o : Origin}
      (selection : Selection mode members kept dropped) :
      Selects mode (.group c membership members n d o) (.group c membership kept (n + dropped.length) d o)
  | other {p : Proof} (other : p.isGroup = false) : Selects mode p (normalStep p)

theorem selects_step (mode : RelevanceMode) (p : Proof) : Selects mode p (normalStep (onlyRelevantStep mode p)) := by
  cases p with
  | group c membership members n d o =>
    have dropped : members.length - mode.count = ((ranked mode members).drop mode.count).length := by
      rw [length_drop, (ranked_perm mode members).length_eq]
    rw [onlyRelevantStep, dropped]
    exact .group (selection_ranked mode members)
  | _ => exact .other rfl

theorem natural_onlyRelevantStep (mode : RelevanceMode) : Natural (onlyRelevantStep mode) := by
  intro f p
  cases p with
  | group c membership members n d o =>
    rw [mapChildren_group, onlyRelevantStep, ranked_map, ← map_take, length_map, onlyRelevantStep, mapChildren_group]
  | _ => simp [onlyRelevantStep]

end Proof

/-- A relevance tactic selects the members of every comparison with a group, at whatever depth it stands. -/
theorem Tactic.onlyRelevant_selects (mode : RelevanceMode) (p : Proof) :
    p.Worked (Proof.Selects mode) ((Tactic.onlyRelevant mode).apply p) := by
  rw [apply, rewrite, Proof.normalize, (Proof.natural_onlyRelevantStep mode).transformUp_transformUp]
  exact Proof.worked_transformUp (Proof.selects_step mode) p

end Rationale
