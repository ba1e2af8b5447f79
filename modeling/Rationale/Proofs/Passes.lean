import Mathlib.Data.List.Basic
import Rationale.Proof.Rewrite

/-!
Proofs as trees: induction over their constructors and over their direct parts, and the two passes over them
as one step at a time. A pass from the leaves up rewrites the parts and then the node; one from the root down
replaces the node or, if it leaves it alone, goes on with the parts. What is read off a proof mostly takes a
conjunction item by item, and then it does not matter how conjunctions are built.
-/

namespace Rationale

@[elab_as_elim, induction_eliminator]
theorem Proof.induct {motive : Proof → Prop}
    (claim : ∀ c, motive (.claim c))
    (assumption : ∀ text, motive (.assumption text))
    (failure : ∀ text, motive (.failure text))
    (conj : ∀ items, (∀ p ∈ items, motive p) → motive (.conj items))
    (implies : ∀ p c d o, motive p → motive (.implies p c d o))
    (conditional : ∀ owner c branch, motive c → (∀ p ∈ branch, motive p) → motive (.conditional owner c branch))
    (group : ∀ c membership members n d o, (∀ p ∈ membership, motive p) →
      (∀ m ∈ members, motive m.proof) → motive (.group c membership members n d o))
    (annotated : ∀ p note, motive p → motive (.annotated p note)) (p : Proof) : motive p :=
  @Proof.rec motive (fun items => ∀ p ∈ items, motive p) (fun branch => ∀ p ∈ branch, motive p)
    (fun members => ∀ m ∈ members, motive m.proof) (fun m => motive m.proof)
    claim assumption failure conj implies conditional group annotated
    (fun _ h => by cases h) (fun _ _ h ih => List.forall_mem_cons.mpr ⟨h, ih⟩)
    (fun _ h => by cases h) (fun _ h _ hp => Option.mem_some.mp hp ▸ h)
    (fun _ h => by cases h) (fun _ _ h ih => List.forall_mem_cons.mpr ⟨h, ih⟩)
    (fun _ _ _ h => h) p

namespace Proof

/-- The direct parts of a proof, in the order in which they are argued. -/
def children : Proof → List Proof
  | .conj items => items
  | .implies p _ _ _ => [p]
  | .conditional _ c branch => c :: branch.toList
  | .group _ membership members _ _ _ => membership.toList ++ members.map (·.proof)
  | .annotated p _ => [p]
  | _ => []

theorem induct_children {motive : Proof → Prop} (step : ∀ p, (∀ q ∈ p.children, motive q) → motive p)
    (p : Proof) : motive p := by
  induction p with
  | claim c => exact step _ fun q hq => by cases hq
  | assumption t => exact step _ fun q hq => by cases hq
  | failure t => exact step _ fun q hq => by cases hq
  | conj items ih => exact step _ ih
  | implies p c d o ih => exact step _ fun q hq => List.mem_singleton.mp hq ▸ ih
  | conditional owner c branch hc hb =>
    refine step _ fun q hq => ?_
    rcases List.mem_cons.mp hq with rfl | hq
    · exact hc
    · exact hb q (Option.mem_toList.mp hq)
  | group c membership members n d o hm ih =>
    refine step _ fun q hq => ?_
    rcases List.mem_append.mp hq with hq | hq
    · exact hm q (Option.mem_toList.mp hq)
    · obtain ⟨m, hm, rfl⟩ := List.mem_map.mp hq
      exact ih m hm
  | annotated p note ih => exact step _ fun q hq => List.mem_singleton.mp hq ▸ ih

@[simp] theorem mapChildren_claim (f : Proof → Proof) (c : Claim) : mapChildren f (claim c) = claim c := rfl

@[simp] theorem mapChildren_assumption (f : Proof → Proof) (t : String) :
    mapChildren f (assumption t) = assumption t := rfl

@[simp] theorem mapChildren_failure (f : Proof → Proof) (t : String) :
    mapChildren f (failure t) = failure t := rfl

@[simp] theorem mapChildren_conj (f : Proof → Proof) (items : List Proof) :
    mapChildren f (conj items) = conj (items.map f) :=
  congrArg conj List.idRun_mapM

@[simp] theorem mapChildren_implies (f : Proof → Proof) (p : Proof) (c : Claim) (d : Nat) (o : Origin) :
    mapChildren f (implies p c d o) = implies (f p) c d o := rfl

@[simp] theorem mapChildren_conditional (f : Proof → Proof) (owner : String) (c : Proof)
    (branch : Option Proof) :
    mapChildren f (conditional owner c branch) = conditional owner (f c) (branch.map f) := by
  cases branch <;> rfl

@[simp] theorem mapChildren_group (f : Proof → Proof) (c : Claim) (membership : Option Proof)
    (members : List (Member Proof)) (n d : Nat) (o : Origin) :
    mapChildren f (group c membership members n d o)
      = group c (membership.map f) (members.map (Member.map f)) n d o := by
  have members_eq : (members.mapM (m := Id) (Member.mapM f)).run = members.map (Member.map f) :=
    List.idRun_mapM
  rw [← members_eq]
  cases membership <;> rfl

@[simp] theorem mapChildren_annotated (f : Proof → Proof) (p : Proof) (note : String) :
    mapChildren f (annotated p note) = annotated (f p) note := rfl

theorem mapChildren_congr {f g : Proof → Proof} {p : Proof} (h : ∀ q ∈ p.children, f q = g q) :
    mapChildren f p = mapChildren g p := by
  cases p with
  | conj items =>
    rw [mapChildren_conj, mapChildren_conj]
    exact congrArg conj (List.map_congr_left h)
  | implies p c d o => rw [mapChildren_implies, mapChildren_implies, h p List.mem_cons_self]
  | conditional owner c branch =>
    rw [mapChildren_conditional, mapChildren_conditional, h c List.mem_cons_self, Option.map_congr fun q hq =>
      h q (List.mem_cons_of_mem _ (Option.mem_toList.mpr hq))]
  | group c membership members n d o =>
    have same : members.map (Member.map f) = members.map (Member.map g) := List.map_congr_left fun m hm => by
      rw [Member.map, h m.proof (List.mem_append_right _ (List.mem_map_of_mem hm)), Member.map]
    rw [mapChildren_group, mapChildren_group, same, Option.map_congr fun q hq =>
      h q (List.mem_append_left _ (Option.mem_toList.mpr hq))]
  | annotated p note => rw [mapChildren_annotated, mapChildren_annotated, h p List.mem_cons_self]
  | _ => rfl

theorem transformUp_eq (f : Proof → Proof) (p : Proof) :
    transformUp f p = f (mapChildren (transformUp f) p) := by
  cases p <;> simp

theorem rewrite_eq (f : Proof → Option Proof) (p : Proof) :
    rewrite f p = (f p).getD (mapChildren (rewrite f) p) := by
  cases h : f p with
  | some q => exact rewrite_of_some h
  | none =>
    rw [Option.getD_none]
    cases p with
    | conj items => rw [mapChildren_conj, ← rewriteAll_eq]; simp [rewrite, rewriteM, h]; rfl
    | conditional owner c branch => cases branch <;> simp [rewrite, rewriteM, h] <;> rfl
    | group c membership members n d o =>
      rw [mapChildren_group, ← rewriteMembers_eq]
      cases membership <;> simp [rewrite, rewriteM, h] <;> rfl
    | _ => simp [rewrite, rewriteM, h]; try rfl

theorem mapChildren_mapChildren (f g : Proof → Proof) (p : Proof) :
    mapChildren f (mapChildren g p) = mapChildren (f ∘ g) p := by
  cases p with
  | conditional owner c branch => cases branch <;> simp
  | group c membership members n d o =>
    have twice : members.map (Member.map f ∘ Member.map g) = members.map (Member.map (f ∘ g)) := rfl
    rw [mapChildren_group, mapChildren_group, mapChildren_group, Option.map_map, List.map_map, twice]
  | _ => simp

/-- A step that keeps, moves or drops the parts of a node without looking into them. -/
def Natural (f : Proof → Proof) : Prop := ∀ g p, f (mapChildren g p) = mapChildren g (f p)

/-- Two passes are one, if the first does not look into the parts that the second changes. -/
theorem Natural.transformUp_transformUp {f : Proof → Proof} (natural : Natural f) (g : Proof → Proof) (p : Proof) :
    transformUp g (transformUp f p) = transformUp (g ∘ f) p := by
  induction p using induct_children with
  | step p ih =>
    have parts : mapChildren (transformUp g ∘ transformUp f) p = mapChildren (transformUp (g ∘ f)) p :=
      mapChildren_congr ih
    rw [transformUp_eq f, transformUp_eq g, natural, mapChildren_mapChildren, ← natural, parts, transformUp_eq (g ∘ f)]
    rfl

/-- The second proof comes of the first by a pass from the leaves up, in which each node, its parts being done, becomes
one that the step allows. -/
inductive Worked (step : Proof → Proof → Prop) : Proof → Proof → Prop
  | node {p q : Proof} (part : Proof → Proof) (parts : ∀ r ∈ p.children, Worked step r (part r))
      (own : step (mapChildren part p) q) : Worked step p q

theorem worked_transformUp {step : Proof → Proof → Prop} {f : Proof → Proof} (h : ∀ p, step p (f p)) (p : Proof) :
    Worked step p (transformUp f p) := by
  induction p using induct_children with
  | step p ih =>
    rw [transformUp_eq]
    exact .node (transformUp f) ih (h _)

/-! ### Readings -/

theorem eq_nothing_of_isEmpty {p : Proof} (h : p.isEmpty = true) : p = nothing := by
  unfold isEmpty at h
  split at h
  · rfl
  · cases h

variable {α : Type}

/-- A reading takes a conjunction item by item. -/
def Itemwise (read : Proof → List α) : Prop := ∀ items, read (.conj items) = items.flatMap read

namespace Itemwise

variable {read : Proof → List α} (h : Itemwise read)

include h

theorem of_isEmpty {p : Proof} (hp : p.isEmpty = true) : read p = [] := by
  rw [eq_nothing_of_isEmpty hp]
  exact h []

theorem conjuncts (p : Proof) : p.conjuncts.flatMap read = read p := by
  cases p with
  | conj items => exact (h items).symm
  | _ => exact List.append_nil _

theorem elim_all? (items : List Proof) : (all? items).elim [] read = items.flatMap read := by
  have opened : (items.flatMap Proof.conjuncts).flatMap read = items.flatMap read := by
    rw [List.flatMap_assoc]
    exact List.flatMap_congr fun p _ => h.conjuncts p
  unfold all?
  rw [← opened]
  split
  · rename_i hnil
    rw [hnil]
    rfl
  · rename_i p hone
    rw [hone]
    exact (List.append_nil _).symm
  · exact h _

theorem getD (o : Option Proof) : read (o.getD nothing) = o.elim [] read := by
  cases o with
  | none => exact h []
  | some p => rfl

theorem all (items : List Proof) : read (Proof.all items) = items.flatMap read := by
  rw [Proof.all, h.getD, h.elim_all?]

theorem elim_filter (o : Option Proof) : (o.filter (!·.isEmpty)).elim [] read = o.elim [] read := by
  cases o with
  | none => rfl
  | some p => cases hp : p.isEmpty <;> simp [Option.filter, hp, h.of_isEmpty]

theorem flatMap_filter (items : List Proof) : (items.filter (!·.isEmpty)).flatMap read = items.flatMap read := by
  induction items with
  | nil => rfl
  | cons p rest ih => cases hp : p.isEmpty <;> simp [hp, ih, h.of_isEmpty]

end Itemwise

end Proof

end Rationale
