import Rationale.Proofs.Bundles
import Rationale.Proofs.Lockstep

/-!
A tactic leaves nothing to do for itself. The passes of most tactics leave no node that their step changes, and the
normal form brings none back. The two that compare parts of a node, the substitution of quantities and the compaction,
rest on more: a finished proof is opened, so the normal form has no conjunctions to open after such a pass, brings no
new items together, and only takes items out of conjunctions in which they were left alone.
-/

namespace Rationale

open List

namespace Proof

/-- The step makes of every node one that it leaves alone, which lasts under the normal form. -/
structure Finishes (f : Proof → Proof) (Q : Proof → Prop) : Prop where
  lasting : Lasting Q
  blind : Blind Q
  fixed : ∀ p, Q p → f p = p
  step : ∀ p, (∀ q ∈ p.children, q.Every Q) → (f p).Every Q

namespace Finishes

variable {f : Proof → Proof} {Q : Proof → Prop} (finishes : Finishes f Q)

include finishes

theorem transformUp_normalize (p : Proof) :
    (p.transformUp f).normalize.transformUp f = (p.transformUp f).normalize :=
  transformUp_of_fixed
    (((every_transformUp finishes.step p).normalize finishes.lasting finishes.blind).mono finishes.fixed)

end Finishes

theorem onlyRelevantStep_again (mode : RelevanceMode) (p : Proof) :
    onlyRelevantStep mode (onlyRelevantStep mode p) = onlyRelevantStep mode p := by
  cases p with
  | group c membership members n d o =>
    have sorted : ranked mode ((ranked mode members).take mode.count) = (ranked mode members).take mode.count :=
      ranked_of_pairwise mode ((pairwise_ranked mode members).sublist (take_sublist _ _))
    have short : ((ranked mode members).take mode.count).length - mode.count = 0 :=
      Nat.sub_eq_zero_of_le (length_take_le _ _)
    rw [onlyRelevantStep, onlyRelevantStep, sorted, take_take, Nat.min_self, short, Nat.add_zero]
  | _ => rfl

theorem finishes_onlyRelevantStep (mode : RelevanceMode) :
    Finishes (onlyRelevantStep mode) fun p => onlyRelevantStep mode p = p where
  lasting := ⟨fun _ => rfl, fun _ => rfl, fun _ => rfl⟩
  blind f p h := (natural_onlyRelevantStep mode f p).trans (congrArg (mapChildren f) h)
  fixed _ h := h
  step p parts := by
    have plain : ∀ q : Proof, q.isPlain = true → onlyRelevantStep mode q = q := fun q hq => by
      cases q with
      | group c membership members n d o => cases hq
      | _ => rfl
    exact every_onlyRelevantStep plain mode (fun _ => onlyRelevantStep_again mode p) parts

theorem quantityStep_of_other {put : Claim → Proof} {p : Proof} (h : p.isQuantitative = false) :
    quantityStep put p = p := by
  cases p with
  | implies p c d o => exact if_neg (beq_eq_false_iff_ne.mp h)
  | _ => rfl

theorem finishes_quantityStep {put : Claim → Proof} (leaf : ∀ c, (put c).children = [])
    (other : ∀ c, (put c).isQuantitative = false) : Finishes (quantityStep put) fun p => p.isQuantitative = false where
  lasting := ⟨fun _ => rfl, fun _ => rfl, fun _ => rfl⟩
  blind f p h := (isQuantitative_mapChildren f p).trans h
  fixed _ := quantityStep_of_other
  step p parts := by
    cases p with
    | implies p c d o =>
      rw [quantityStep]
      split
      · exact every_leaf (other c) (leaf c)
      · rename_i hk
        exact every_iff.mpr ⟨beq_eq_false_iff_ne.mpr hk, parts⟩
    | _ => exact every_iff.mpr ⟨rfl, parts⟩

/-- The node is no conditional whose condition the tactic leaves out. -/
def isExplained (exceptOn : List String) : Proof → Bool
  | .conditional owner _ _ => exceptOn.contains owner
  | _ => true

theorem finishes_skipConditionStep (exceptOn : List String) :
    Finishes (skipConditionStep exceptOn) fun p => p.isExplained exceptOn = true where
  lasting := ⟨fun _ => rfl, fun _ => rfl, id⟩
  blind f p h := by
    cases p with
    | conditional owner c branch => rwa [mapChildren_conditional]
    | _ => simp [isExplained]
  fixed p h := by
    cases p with
    | conditional owner c branch => exact if_pos h
    | _ => rfl
  step p parts := by
    cases p with
    | conditional owner c branch =>
      rw [skipConditionStep]
      split
      · rename_i kept
        exact every_iff.mpr ⟨kept, parts⟩
      · cases branch with
        | none => exact every_leaf rfl rfl
        | some q => exact parts q (mem_cons_of_mem _ mem_cons_self)
    | _ => exact every_iff.mpr ⟨rfl, parts⟩

/-! ### Assumptions that are not repeated -/

def assumed? : Proof → Option String
  | .assumption t => some t
  | _ => none

theorem assumed?_mapChildren (f : Proof → Proof) (p : Proof) : (mapChildren f p).assumed? = p.assumed? := by
  cases p <;> simp [assumed?]

/-- No assumption stands twice among the items. -/
def Frugal : Proof → Prop
  | .conj items => (items.filterMap assumed?).Nodup
  | _ => True

theorem same_assumption {p : Proof} {t : String} : p.same (.assumption t) = true ↔ p.assumed? = some t := by
  cases p <;> simp [same, assumed?]

theorem any_same_assumption {items : List Proof} {t : String} :
    items.any (·.same (.assumption t)) = true ↔ t ∈ items.filterMap assumed? := by
  simp only [any_eq_true, mem_filterMap, same_assumption]

theorem frugal_withoutRepeatedAssumptions (items : List Proof) : Frugal (.conj (withoutRepeatedAssumptions items)) := by
  rw [Frugal]
  induction items using reverseRecOn with
  | nil => exact nodup_nil
  | append_singleton items p ih =>
    rw [withoutRepeatedAssumptions_append]
    split
    · exact ih
    · rename_i fresh
      rw [filterMap_append]
      cases p with
      | assumption t =>
        refine nodup_append.mpr ⟨ih, pairwise_singleton _ t, fun s hs u hu => ?_⟩
        obtain rfl := mem_singleton.mp hu
        rintro rfl
        exact fresh (any_same_assumption.mpr hs)
      | _ => exact (append_nil _).symm ▸ ih

theorem withoutRepeatedAssumptions_of_frugal {items : List Proof} (h : Frugal (.conj items)) :
    withoutRepeatedAssumptions items = items := by
  rw [Frugal] at h
  induction items using reverseRecOn with
  | nil => rfl
  | append_singleton items p ih =>
    rw [filterMap_append] at h
    obtain ⟨before, -, disjoint⟩ := nodup_append.mp h
    rw [withoutRepeatedAssumptions_append, ih before, if_neg]
    intro repeated
    cases p with
    | assumption t => exact disjoint t (any_same_assumption.mp repeated) t mem_cons_self rfl
    | _ => cases repeated

theorem dedupStep_of_frugal {p : Proof} (h : p.Frugal) : dedupStep p = p := by
  cases p with
  | conj items => exact congrArg conj (withoutRepeatedAssumptions_of_frugal h)
  | _ => rfl

theorem every_frugal_dedup (p : Proof) : (p.transformUp dedupStep).Every Frugal := by
  refine every_transformUp (fun p parts => ?_) p
  cases p with
  | conj items =>
    exact every_iff.mpr ⟨frugal_withoutRepeatedAssumptions items,
      fun q hq => parts q ((withoutRepeatedAssumptions_sublist items).subset hq)⟩
  | _ => exact every_iff.mpr ⟨trivial, parts⟩

/-- The normal forms of items that are no conjunctions are assumptions just where the items are. -/
theorem frugal_normalize {p : Proof} (opened : p.Every Opened) (h : p.Every Frugal) :
    (mapChildren normalize p).Frugal := by
  obtain ⟨own, parts⟩ := every_iff.mp opened
  cases p with
  | conj items =>
    have each : ∀ q ∈ items, (assumed? ∘ normalize) q = q.assumed? := fun q hq => by
      rw [Function.comp_apply, normalize_of_not_conj (parts q hq) (own q hq).1, assumed?_mapChildren]
    rw [mapChildren_conj, Frugal, filterMap_map, filterMap_congr each]
    exact (every_iff.mp h).1
  | group c membership members n d o => rw [mapChildren_group]; trivial
  | conditional owner c branch => rw [mapChildren_conditional]; trivial
  | _ => trivial

theorem steady_quantityStep {put : Claim → Proof} (leaf : ∀ c, (put c).children = [])
    (opened : ∀ c, (put c).Opened) (single : ∀ c, (put c).isConj = false) : Steady (quantityStep put) := by
  intro p h
  cases p with
  | implies p c d o =>
    rw [quantityStep]
    split
    · exact ⟨every_leaf (opened c) (leaf c), .of_not_conj (single c)⟩
    · exact ⟨h, id, id⟩
  | _ => exact ⟨h, id, id⟩

theorem steady_dedupStep : Steady dedupStep := by
  intro p h
  cases p with
  | conj items =>
    obtain ⟨own, parts⟩ := every_iff.mp h
    have kept := (withoutRepeatedAssumptions_sublist items).subset
    refine ⟨every_iff.mpr ⟨fun q hq => own q (kept hq), fun q hq => parts q (kept hq)⟩, ?_⟩
    refine ⟨fun joined => (by cases joined), fun nonempty => ?_⟩
    rw [isEmpty_conj, isEmpty_eq_false_iff_exists_mem] at nonempty
    obtain ⟨q, hq⟩ := nonempty
    rw [dedupStep, isEmpty_conj, isEmpty_eq_false_iff_exists_mem]
    rcases mem_withoutRepeatedAssumptions hq with hq | ⟨-, r, hr, -⟩
    · exact ⟨q, hq⟩
    · exact ⟨r, hr⟩
  | _ => exact ⟨h, id, id⟩

section Substitution
variable (phrase : String)

theorem finishes_phrase :
    Finishes (quantityStep fun _ => .assumption phrase) fun p => p.isQuantitative = false :=
  finishes_quantityStep (fun _ => rfl) fun _ => rfl

theorem every_bare_inside (p : Proof) :
    (substituteQuantities.inside phrase p).normalize.Every fun q => q.isQuantitative = false := by
  have finishes := finishes_phrase phrase
  rw [inside_eq]
  refine Every.normalize finishes.lasting finishes.blind ?_
  refine (every_transformUp finishes.step p).transformUp finishes.blind fun q => ?_
  exact every_dedupStep (P := fun q => q.isQuantitative = false) fun _ => rfl

theorem every_frugal_inside {p : Proof} (normal : p.Every Normal) :
    (substituteQuantities.inside phrase p).normalize.Every Frugal := by
  have steady : Steady (quantityStep fun _ => .assumption phrase) :=
    steady_quantityStep (fun _ => rfl) (fun _ => trivial) fun _ => rfl
  have opened := steady.transformUp normal.opened
  rw [inside_eq]
  exact .normalize_opened (fun _ => frugal_normalize) (steady_dedupStep.transformUp opened.1).1 (every_frugal_dedup _)

/-- A substitution finds neither quantities nor repeated assumptions in a finished proof in which quantities were
substituted. -/
theorem substituteQuantities_inside {p : Proof} (normal : p.Every Normal) :
    (substituteQuantities.inside phrase p).normalize.substituteQuantities phrase
      = (substituteQuantities.inside phrase p).normalize := by
  have bare := every_bare_inside phrase p
  have frugal := every_frugal_inside phrase normal
  rw [substituteQuantities_of_other (every_iff.mp bare).1, inside_eq phrase (normalize _),
    transformUp_of_fixed (bare.mono (finishes_phrase phrase).fixed),
    transformUp_of_fixed (frugal.mono fun _ => dedupStep_of_frugal)]

theorem normalize_phrase (c : Claim) (d : Nat) (o : Origin) :
    (implies (.assumption phrase) c d o).normalize = .implies (.assumption phrase) c d o := rfl

theorem substituteQuantities_again {p : Proof} (normal : p.Every Normal) :
    (p.substituteQuantities phrase).normalize.substituteQuantities phrase
      = (p.substituteQuantities phrase).normalize := by
  cases hp : p.isQuantitative with
  | false =>
    rw [substituteQuantities_of_other hp]
    exact substituteQuantities_inside phrase normal
  | true =>
    cases p with
    | implies premise c d o =>
      have kind : o.kind = .quantitative := beq_iff_eq.mp hp
      rw [substituteQuantities, if_pos kind, normalize_phrase, substituteQuantities, if_pos kind]
    | _ => cases hp

end Substitution

end Proof

/-! ### Tactics -/

/-- A proof that a tactic has finished is rewritten to itself. -/
theorem Tactic.rewrite_apply (t : Tactic) {p : Proof} (normal : p.Every Proof.Normal)
    (plain : p.Every fun q => q.isAnnotated = false) : t.rewrite (t.apply p) = t.apply p := by
  cases t with
  | onlyRelevant mode => exact (Proof.finishes_onlyRelevantStep mode).transformUp_normalize p
  | skipQuantitative =>
    rw [apply, rewrite, rewrite, Proof.rewrite_bareQuantity, Proof.rewrite_bareQuantity]
    exact (Proof.finishes_quantityStep (fun _ => rfl) fun _ => rfl).transformUp_normalize p
  | substituteQuantitative phrase => exact Proof.substituteQuantities_again phrase normal
  | compactSame =>
    exact Proof.transformUp_of_fixed
      ((Proof.every_apart_normalize normal plain).mono fun _ => Proof.compactStep_of_apart)
  | skipCondition exceptOn => exact (Proof.finishes_skipConditionStep exceptOn).transformUp_normalize p

/-- Every tactic is idempotent on finished proofs without notes. -/
theorem Tactic.apply_idempotent (t : Tactic) {p : Proof} (finished : p.normalize = p)
    (plain : p.Every fun q => q.isAnnotated = false) : t.apply (t.apply p) = t.apply p := by
  have again := t.rewrite_apply (Proof.normalize_eq_self.mp finished) plain
  rw [apply, again]
  exact Proof.normalize_eq_self.mpr (Proof.every_normal_normalize _)

/-- The suits that do alike are merged once. -/
theorem Suit.rivals_again : rivals.normalize = rivals ∧ rivals.Every (fun q => q.isAnnotated = false) ∧
    (Tactic.compactSame.apply rivals).claims.length < rivals.claims.length ∧
    Tactic.compactSame.apply (Tactic.compactSame.apply rivals) = Tactic.compactSame.apply rivals := by
  have plain : ∀ q ∈ rivals.preorder, q.isAnnotated = false := by decide
  exact ⟨rfl, plain, by decide, Tactic.apply_idempotent .compactSame rfl plain⟩

end Rationale
