import Mathlib.Data.List.Forall2
import Rationale.Proofs.NormalForms

/-!
When proofs are the same, and what becomes of that when labels are replaced. Sameness is read node by node: two nodes
that are the same apart from their parts, with parts that are the same one by one. It is symmetric and transitive, but
not reflexive, since what is not a number is not the same as itself. Same proofs make the same claims, and stay the
same under a replacement of labels; a label that is masked can be put back, or another one in its place, if the mask
stood nowhere before.
-/

namespace Rationale

open List

section Lists
variable {α β : Type} {R S : α → β → Prop}

/-- What holds of the pairs of two lists may be used with what is known of the elements of the first. -/
theorem forall₂_imp_left {l : List α} {l' : List β} (h : Forall₂ R l l') (imp : ∀ a ∈ l, ∀ b, R a b → S a b) :
    Forall₂ S l l' :=
  ((forall₂_and_left l l').mpr ⟨imp, h⟩).imp fun _ b ⟨imp, hr⟩ => imp b hr

theorem flatMap_eq_of_forall₂ {γ : Type} {f : α → List γ} {g : β → List γ} {l : List α} {l' : List β}
    (h : Forall₂ (fun a b => f a = g b) l l') : l.flatMap f = l'.flatMap g := by
  induction h with
  | nil => rfl
  | cons head _ ih => rw [flatMap_cons, flatMap_cons, head, ih]

theorem forall₂_trans {γ : Type} {S : β → γ → Prop} {T : α → γ → Prop} (trans : ∀ a b c, R a b → S b c → T a c)
    {l : List α} {l' : List β} (h : Forall₂ R l l') {l'' : List γ} (h' : Forall₂ S l' l'') : Forall₂ T l l'' := by
  induction h generalizing l'' with
  | nil =>
    cases h'
    exact .nil
  | cons head _ ih =>
    cases h' with
    | cons head' rest' => exact .cons (trans _ _ _ head head') (ih rest')

end Lists

theorem Number.eq_iff {x y : Number} : x.eq y = true ↔ x.isNaN = false ∧ y.isNaN = false ∧ x.line = y.line := by
  simp [eq, and_assoc]

namespace Proof

theorem sameRelevance_symm {x y : Option Number} (h : sameRelevance x y = true) : sameRelevance y x = true := by
  cases x with
  | none => cases y with
    | none => rfl
    | some y => cases h
  | some x => cases y with
    | none => cases h
    | some y =>
      obtain ⟨hx, hy, line⟩ := Number.eq_iff.mp h
      exact Number.eq_iff.mpr ⟨hy, hx, line.symm⟩

theorem sameRelevance_trans {x y z : Option Number} (h : sameRelevance x y = true) (h' : sameRelevance y z = true) :
    sameRelevance x z = true := by
  cases y with
  | none =>
    cases x with
    | none => exact h'
    | some x => cases h
  | some y =>
    cases x with
    | none => cases h
    | some x => cases z with
      | none => cases h'
      | some z =>
        obtain ⟨hx, -, line⟩ := Number.eq_iff.mp h
        obtain ⟨-, hz, line'⟩ := Number.eq_iff.mp h'
        exact Number.eq_iff.mpr ⟨hx, hz, line.trans line'⟩

/-- Two members that are the same apart from their proofs. -/
def SameMember (x y : Member Proof) : Prop := x.labels = y.labels ∧ sameRelevance x.relevance y.relevance = true

/-- Two nodes that are the same apart from their parts. -/
inductive SameNode : Proof → Proof → Prop
  | claim (c : Claim) : SameNode (.claim c) (.claim c)
  | assumption (t : String) : SameNode (.assumption t) (.assumption t)
  | failure (t : String) : SameNode (.failure t) (.failure t)
  | conj (items items' : List Proof) : SameNode (.conj items) (.conj items')
  | implies (p p' : Proof) (c : Claim) (d : Nat) (o : Origin) : SameNode (.implies p c d o) (.implies p' c d o)
  | conditional (owner : String) (c c' : Proof) {branch branch' : Option Proof}
      (both : branch.isSome = branch'.isSome) : SameNode (.conditional owner c branch) (.conditional owner c' branch')
  | group (c : Claim) {membership membership' : Option Proof} {members members' : List (Member Proof)} (n d : Nat)
      (o : Origin) (both : membership.isSome = membership'.isSome) (each : Forall₂ SameMember members members') :
      SameNode (.group c membership members n d o) (.group c membership' members' n d o)
  | annotated (p p' : Proof) (note : String) : SameNode (.annotated p note) (.annotated p' note)

theorem sameAll_iff {items items' : List Proof} :
    sameAll items items' = true ↔ Forall₂ (fun p q => p.same q = true) items items' := by
  induction items generalizing items' with
  | nil => cases items' <;> simp [sameAll]
  | cons p rest ih => cases items' <;> simp [sameAll, ih]

theorem sameMembers_iff {members members' : List (Member Proof)} :
    sameMembers members members' = true ↔ Forall₂ SameMember members members' ∧
      Forall₂ (fun p q => p.same q = true) (members.map (·.proof)) (members'.map (·.proof)) := by
  induction members generalizing members' with
  | nil => cases members' <;> simp [sameMembers]
  | cons x rest ih =>
    cases members' with
    | nil => simp [sameMembers]
    | cons y rest' =>
      simp only [sameMembers, Bool.and_eq_true, beq_iff_eq, ih, forall₂_cons, map_cons, SameMember]
      constructor
      · rintro ⟨⟨⟨labels, relevance⟩, proof⟩, each, proofs⟩
        exact ⟨⟨⟨labels, relevance⟩, each⟩, proof, proofs⟩
      · rintro ⟨⟨⟨labels, relevance⟩, each⟩, proof, proofs⟩
        exact ⟨⟨⟨labels, relevance⟩, proof⟩, each, proofs⟩

theorem same_iff {p q : Proof} :
    p.same q = true ↔ SameNode p q ∧ Forall₂ (fun x y => x.same y = true) p.children q.children := by
  -- Nodes of different forms are never the same, so each form only meets its own.
  constructor
  · intro h
    cases p with
    | claim c =>
      cases q with
      | claim c' => exact (beq_iff_eq.mp h : c = c') ▸ ⟨.claim c, .nil⟩
      | _ => cases h
    | assumption t =>
      cases q with
      | assumption t' => exact (beq_iff_eq.mp h : t = t') ▸ ⟨.assumption t, .nil⟩
      | _ => cases h
    | failure t =>
      cases q with
      | failure t' => exact (beq_iff_eq.mp h : t = t') ▸ ⟨.failure t, .nil⟩
      | _ => cases h
    | conj items =>
      cases q with
      | conj items' => exact ⟨.conj items items', sameAll_iff.mp h⟩
      | _ => cases h
    | implies p c d o =>
      cases q with
      | implies p' c' d' o' =>
        simp only [same, Bool.and_eq_true, beq_iff_eq] at h
        obtain ⟨⟨⟨hp, rfl⟩, rfl⟩, rfl⟩ := h
        exact ⟨.implies p p' c d o, .cons hp .nil⟩
      | _ => cases h
    | conditional owner c branch =>
      cases q with
      | conditional owner' c' branch' =>
        cases branch <;> cases branch' <;>
          simp only [same, Bool.and_eq_true, beq_iff_eq, Bool.and_true, Bool.and_false, Bool.false_eq_true] at h
        · obtain ⟨rfl, hc⟩ := h
          exact ⟨.conditional owner c c' rfl, .cons hc .nil⟩
        · obtain ⟨⟨rfl, hc⟩, hb⟩ := h
          exact ⟨.conditional owner c c' rfl, .cons hc (.cons hb .nil)⟩
      | _ => cases h
    | group c membership members n d o =>
      cases q with
      | group c' membership' members' n' d' o' =>
        cases membership <;> cases membership' <;>
          simp only [same, Bool.and_eq_true, beq_iff_eq, Bool.and_true, Bool.and_false, Bool.false_and,
            Bool.false_eq_true, sameMembers_iff] at h
        · obtain ⟨⟨⟨⟨rfl, each, proofs⟩, rfl⟩, rfl⟩, rfl⟩ := h
          exact ⟨.group c n d o rfl each, proofs⟩
        · obtain ⟨⟨⟨⟨⟨rfl, hm⟩, each, proofs⟩, rfl⟩, rfl⟩, rfl⟩ := h
          exact ⟨.group c n d o rfl each, .cons hm proofs⟩
      | _ => cases h
    | annotated p note =>
      cases q with
      | annotated p' note' =>
        simp only [same, Bool.and_eq_true, beq_iff_eq] at h
        obtain ⟨hp, rfl⟩ := h
        exact ⟨.annotated p p' note, .cons hp .nil⟩
      | _ => cases h
  · rintro ⟨node, parts⟩
    cases node with
    | claim c => exact beq_self_eq_true c
    | assumption t => exact beq_self_eq_true t
    | failure t => exact beq_self_eq_true t
    | conj items items' => exact sameAll_iff.mpr parts
    | implies p p' c d o => simpa [same, children] using parts
    | @conditional owner c c' branch branch' both =>
      cases branch <;> cases branch' <;> simp_all [same, children]
    | @group c membership membership' members members' n d o both each =>
      cases membership <;> cases membership' <;> simp_all [same, children, sameMembers_iff]
    | annotated p p' note => simpa [same, children] using parts

theorem same_induct {p q : Proof} {motive : Proof → Proof → Prop} (h : p.same q = true)
    (step : ∀ p q, SameNode p q → Forall₂ (fun x y => x.same y = true) p.children q.children →
      Forall₂ motive p.children q.children → motive p q) : motive p q := by
  induction p using induct_children generalizing q with
  | step p ih =>
    obtain ⟨node, parts⟩ := same_iff.mp h
    exact step p q node parts (forall₂_imp_left parts fun x hx y hxy => ih x hx hxy)

theorem SameNode.symm {p q : Proof} (h : SameNode p q) : SameNode q p := by
  cases h with
  | conditional owner c c' both => exact .conditional owner c' c both.symm
  | group c n d o both each =>
    exact .group c n d o both.symm (each.imp fun _ _ ⟨labels, relevance⟩ =>
      ⟨labels.symm, sameRelevance_symm relevance⟩).flip
  | _ => constructor

theorem same_symm {p q : Proof} (h : p.same q = true) : q.same p = true :=
  same_induct h fun _ _ node _ parts => same_iff.mpr ⟨node.symm, parts.flip⟩

theorem SameNode.trans {p q r : Proof} (h : SameNode p q) (h' : SameNode q r) : SameNode p r := by
  cases h with
  | conditional owner c c' both =>
    cases h' with
    | conditional owner c' c'' both' => exact .conditional owner c c'' (both.trans both')
  | group c n d o both each =>
    cases h' with
    | group c n d o both' each' =>
      refine .group c n d o (both.trans both') (forall₂_trans ?_ each each')
      rintro x y z ⟨labels, relevance⟩ ⟨labels', relevance'⟩
      exact ⟨labels.trans labels', sameRelevance_trans relevance relevance'⟩
  | _ => cases h'; constructor

theorem same_trans {p q r : Proof} (h : p.same q = true) (h' : q.same r = true) : p.same r = true := by
  refine same_induct (motive := fun p q => ∀ r, q.same r = true → p.same r = true) h ?_ r h'
  intro p q node _ parts r h'
  obtain ⟨node', parts'⟩ := same_iff.mp h'
  exact same_iff.mpr ⟨node.trans node', forall₂_trans (fun _ _ z hxy hyz => hxy z hyz) parts parts'⟩

theorem SameNode.mapChildren {p q : Proof} (h : SameNode p q) (f g : Proof → Proof) :
    SameNode (mapChildren f p) (mapChildren g q) := by
  cases h with
  | conditional owner c c' both =>
    rw [mapChildren_conditional, mapChildren_conditional]
    exact .conditional owner _ _ (by rw [Option.isSome_map, Option.isSome_map, both])
  | group c n d o both each =>
    rw [mapChildren_group, mapChildren_group]
    refine .group c n d o (by rw [Option.isSome_map, Option.isSome_map, both]) ?_
    exact forall₂_map_left_iff.mpr (forall₂_map_right_iff.mpr each)
  | conj items items' =>
    rw [mapChildren_conj, mapChildren_conj]
    exact .conj _ _
  | _ => constructor

theorem SameNode.relabelStep {p q : Proof} (h : SameNode p q) (source target : String) :
    SameNode (relabelStep source target p) (relabelStep source target q) := by
  cases h with
  | conditional owner c c' both => exact .conditional owner c c' both
  | group c n d o both each => exact .group _ n d o both each
  | _ => constructor

theorem same_comm (p q : Proof) : p.same q = q.same p := Bool.eq_iff_iff.mpr ⟨same_symm, same_symm⟩

theorem SameNode.own? {p q : Proof} (h : SameNode p q) : p.own? = q.own? := by
  cases h <;> rfl

theorem claims_of_same {p q : Proof} (h : p.same q = true) : p.claims = q.claims := by
  refine same_induct (motive := fun p q => p.claims = q.claims) h fun p q node _ parts => ?_
  rw [claims_eq_children, claims_eq_children, node.own?, flatMap_eq_of_forall₂ parts]

end Proof

/-! ### Labels in claims -/

namespace Claim

/-- The claim speaks of the node of that label, or gives the label as a value. -/
def Mentions (label : String) (c : Claim) : Prop :=
  c.subject = label ∨ match c.predicate with
    | .has _ value => value = label
    | .compared _ other => other = label
    | _ => False

instance (label : String) : (c : Claim) → Decidable (c.Mentions label)
  | ⟨subject, .is _, _⟩ => inferInstanceAs (Decidable (subject = label ∨ False))
  | ⟨subject, .has _ value, _⟩ => inferInstanceAs (Decidable (subject = label ∨ value = label))
  | ⟨subject, .compared _ other, _⟩ => inferInstanceAs (Decidable (subject = label ∨ other = label))
  | ⟨subject, .comparedToGroup _ _ _, _⟩ => inferInstanceAs (Decidable (subject = label ∨ False))

/-- The claim with other labels. -/
def mapLabels (f : String → String) (c : Claim) : Claim :=
  ⟨f c.subject, match c.predicate with
    | .has adjective value => .has adjective (f value)
    | .compared adjective other => .compared adjective (f other)
    | p => p, c.negated⟩

variable {c : Claim} {source target label : String}

theorem relabel_eq (source target : String) (c : Claim) :
    c.relabel source target = c.mapLabels (swapLabel source target) := rfl

theorem mapLabels_congr {f g : String → String} (h : ∀ l, c.Mentions l → f l = g l) :
    c.mapLabels f = c.mapLabels g := by
  obtain ⟨subject, predicate, negated⟩ := c
  rw [mapLabels, mapLabels, h subject (.inl rfl)]
  cases predicate with
  | has adjective value => simp only [h value (.inr rfl)]
  | compared adjective other => simp only [h other (.inr rfl)]
  | _ => rfl

theorem mapLabels_mapLabels (f g : String → String) (c : Claim) :
    (c.mapLabels g).mapLabels f = c.mapLabels (f ∘ g) := by
  obtain ⟨subject, predicate, negated⟩ := c
  cases predicate <;> rfl

theorem mapLabels_of_fixed {f : String → String} (h : ∀ l, c.Mentions l → f l = l) : c.mapLabels f = c := by
  rw [mapLabels_congr (g := id) h]
  obtain ⟨subject, predicate, negated⟩ := c
  cases predicate <;> rfl

theorem relabel_of_absent (absent : ¬c.Mentions source) : c.relabel source target = c :=
  mapLabels_of_fixed fun l hl => if_neg fun h : l = source => absent (h ▸ hl)

theorem relabel_self (c : Claim) (source : String) : c.relabel source source = c :=
  mapLabels_of_fixed fun l _ => by
    rw [swapLabel]
    split
    · rename_i h
      exact h.symm
    · rfl

/-- What was put in place of a label may itself be replaced, if it did not occur before. -/
theorem relabel_relabel (absent : ¬c.Mentions label) :
    (c.relabel source label).relabel label target = c.relabel source target := by
  rw [relabel_eq, relabel_eq, relabel_eq, mapLabels_mapLabels]
  refine mapLabels_congr fun l hl => ?_
  have other : l ≠ label := fun h => absent (h ▸ hl)
  by_cases h : l = source <;> simp [swapLabel, h, other]

/-- A replacement leaves nothing for a second one like it. -/
theorem relabel_again (c : Claim) (source target : String) :
    (c.relabel source target).relabel source target = c.relabel source target := by
  rw [relabel_eq, relabel_eq, mapLabels_mapLabels]
  refine mapLabels_congr fun l _ => ?_
  by_cases h : l = source <;> simp [swapLabel, h]

end Claim

/-! ### Labels in proofs -/

namespace Proof

variable {p q : Proof} {source target label : String}

/-- The claim of a node. -/
def claim? (p : Proof) : Option Claim := p.own?.bind Entry.claim?

theorem claims_eq_parts (p : Proof) : p.claims = p.children.flatMap claims ++ p.claim?.toList := claims_eq_children p

theorem forall_claims {P : Claim → Prop} : (∀ c ∈ p.claims, P c) ↔ p.Every fun q => ∀ c ∈ q.claim?, P c := by
  induction p using induct_children with
  | step p ih =>
    rw [claims_eq_parts, every_iff]
    constructor
    · intro h
      refine ⟨fun c hc => h c (mem_append_right _ (Option.mem_toList.mpr hc)), fun q hq => (ih q hq).mp fun c hc => ?_⟩
      exact h c (mem_append_left _ (mem_flatMap.mpr ⟨q, hq, hc⟩))
    · rintro ⟨own, parts⟩ c hc
      rcases mem_append.mp hc with hc | hc
      · obtain ⟨q, hq, hc⟩ := mem_flatMap.mp hc
        exact (ih q hq).mpr (parts q hq) c hc
      · exact own c (Option.mem_toList.mp hc)

theorem natural_relabelStep (source target : String) : Natural (relabelStep source target) := by
  intro f p
  cases p <;> simp [relabelStep]

theorem relabel_eq (source target : String) (p : Proof) :
    p.relabel source target = relabelStep source target (mapChildren (relabel source target) p) :=
  transformUp_eq _ p

theorem children_relabel (source target : String) (p : Proof) :
    (p.relabel source target).children = p.children.map (relabel source target) := by
  have own (p : Proof) : (relabelStep source target p).children = p.children := by cases p <;> rfl
  rw [relabel_eq, own, children_mapChildren]

theorem claim?_relabel (source target : String) (p : Proof) :
    (p.relabel source target).claim? = p.claim?.map (·.relabel source target) := by
  have own (p : Proof) : (relabelStep source target p).claim? = p.claim?.map (·.relabel source target) := by
    cases p <;> rfl
  rw [relabel_eq, own, claim?, own?_mapChildren, claim?]

theorem claims_relabel (source target : String) (p : Proof) :
    (p.relabel source target).claims = p.claims.map (·.relabel source target) := by
  induction p using induct_children with
  | step p ih =>
    rw [claims_eq_parts, claims_eq_parts p, children_relabel, claim?_relabel, map_append, flatMap_map, map_flatMap,
      flatMap_congr ih, Option.toList_map]

/-- Proofs that are the same stay so, whatever label is replaced. -/
theorem same_relabel (h : p.same q = true) (source target : String) :
    (p.relabel source target).same (q.relabel source target) = true := by
  refine same_induct (motive := fun p q => (p.relabel source target).same (q.relabel source target) = true) h ?_
  intro p q node _ parts
  have own : SameNode (p.relabel source target) (q.relabel source target) := by
    rw [relabel_eq, relabel_eq]
    exact (node.mapChildren _ _).relabelStep source target
  refine same_iff.mpr ⟨own, ?_⟩
  rw [children_relabel, children_relabel]
  exact forall₂_map_left_iff.mpr (forall₂_map_right_iff.mpr parts)

/-- A proof whose claims stay as they are stays as it is. -/
theorem relabel_of_fixed (h : ∀ c ∈ p.claims, c.relabel source target = c) : p.relabel source target = p := by
  refine transformUp_of_fixed ((forall_claims.mp h).mono fun q fixed => ?_)
  cases q <;> simp_all [relabelStep, claim?, own?, Entry.claim?]

theorem relabel_of_absent (absent : ∀ c ∈ p.claims, ¬c.Mentions source) : p.relabel source target = p :=
  relabel_of_fixed fun c hc => Claim.relabel_of_absent (absent c hc)

theorem relabel_self (p : Proof) (source : String) : p.relabel source source = p :=
  relabel_of_fixed fun c _ => c.relabel_self source

theorem relabel_relabel (absent : ∀ c ∈ p.claims, ¬c.Mentions label) :
    (p.relabel source label).relabel label target = p.relabel source target := by
  have each := forall_claims.mp absent
  clear absent
  induction p using induct_children with
  | step p ih =>
    obtain ⟨own, parts⟩ := every_iff.mp each
    have done : mapChildren (relabel label target ∘ relabel source label) p = mapChildren (relabel source target) p :=
      mapChildren_congr fun q hq => ih q hq (parts q hq)
    have own' : ∀ c ∈ (mapChildren (relabel source target) p).claim?, ¬c.Mentions label := by
      rw [claim?, own?_mapChildren]
      exact own
    rw [relabel_eq source label, relabel_eq label target, ← natural_relabelStep source label, mapChildren_mapChildren,
      done, relabel_eq source target]
    generalize mapChildren (relabel source target) p = q at own'
    cases q <;> simp_all [relabelStep, claim?, own?, Entry.claim?, Claim.relabel_relabel]

/-- If two proofs are the same once a label of each is masked, and the mask stood in neither, then the second is the
first with its label for that of the first. -/
theorem same_of_masked {mask : String} (hp : ∀ c ∈ p.claims, ¬c.Mentions mask) (hq : ∀ c ∈ q.claims, ¬c.Mentions mask)
    (h : (p.relabel source mask).same (q.relabel target mask) = true) : q.same (p.relabel source target) = true := by
  have unmasked := same_relabel h mask target
  rw [relabel_relabel hp, relabel_relabel hq, relabel_self] at unmasked
  exact same_symm unmasked

/-- A proof without the label is the same as one in which it is masked only if it stood nowhere in that. -/
theorem relabel_of_same_masked {mask : String} (h : p.same (q.relabel source mask) = true) :
    p.relabel source mask = p := by
  refine relabel_of_fixed ?_
  rw [claims_of_same h, claims_relabel]
  exact forall_mem_map.mpr fun c _ => c.relabel_again source mask

end Proof

end Rationale
