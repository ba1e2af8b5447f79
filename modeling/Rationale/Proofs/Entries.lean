import Mathlib.Data.List.Basic
import Rationale.Proof.Normal
import Rationale.Proofs.Passes

/-!
What a proof says, leaf by leaf: its claims, assumptions and failures in the order in which they are argued,
each conclusion after what supports it. The claims of a proof and its number of failures are read off its
entries, and the normal form has the entries of the proof it is taken of.
-/

namespace Rationale

/-- A leaf of a proof, or a conclusion it draws. -/
inductive Entry
  | claim (c : Claim)
  | assumption (text : String)
  | failure (text : String)
deriving DecidableEq

namespace Entry

def claim? : Entry → Option Claim
  | .claim c => some c
  | _ => none

def isFailure : Entry → Bool
  | .failure _ => true
  | _ => false

def isAssumption : Entry → Bool
  | .assumption _ => true
  | _ => false

/-- Whether the entry is the placeholder of something that was not expanded. -/
def isUnresolved : Entry → Bool
  | .claim c => c.isUnresolved
  | _ => false

end Entry

namespace Proof

mutual

/-- What a proof says, each conclusion after what supports it. -/
def entries : Proof → List Entry
  | .claim c => [.claim c]
  | .assumption t => [.assumption t]
  | .failure t => [.failure t]
  | .conj items => entriesOfAll items
  | .implies premise c _ _ => premise.entries ++ [.claim c]
  | .conditional _ condition branch =>
    condition.entries ++ (match branch with
      | none => []
      | some p => p.entries)
  | .group c membership members _ _ _ =>
    (match membership with
      | none => []
      | some p => p.entries) ++ entriesOfMembers members ++ [.claim c]
  | .annotated p _ => p.entries

def entriesOfAll : List Proof → List Entry
  | [] => []
  | p :: rest => p.entries ++ entriesOfAll rest

def entriesOfMembers : List (Member Proof) → List Entry
  | [] => []
  | ⟨_, _, p⟩ :: rest => p.entries ++ entriesOfMembers rest

end

/-- What a proof says that may be missing. -/
def entries? : Option Proof → List Entry
  | none => []
  | some p => p.entries

@[simp] theorem entries?_none : entries? none = [] := rfl

@[simp] theorem entries?_some (p : Proof) : entries? (some p) = p.entries := rfl

theorem entriesOfAll_eq (items : List Proof) : entriesOfAll items = items.flatMap entries := by
  induction items with
  | nil => rfl
  | cons p rest ih => simp [entriesOfAll, ih]

theorem entriesOfMembers_eq (members : List (Member Proof)) :
    entriesOfMembers members = members.flatMap (·.proof.entries) := by
  induction members with
  | nil => rfl
  | cons m rest ih => simp [entriesOfMembers, ih]

@[simp] theorem entries_claim (c : Claim) : (claim c).entries = [.claim c] := rfl

@[simp] theorem entries_assumption (t : String) : (assumption t).entries = [.assumption t] := rfl

@[simp] theorem entries_failure (t : String) : (failure t).entries = [.failure t] := rfl

@[simp] theorem entries_conj (items : List Proof) : (conj items).entries = items.flatMap entries :=
  entriesOfAll_eq items

@[simp] theorem entries_implies (p : Proof) (c : Claim) (d : Nat) (o : Origin) :
    (implies p c d o).entries = p.entries ++ [.claim c] := rfl

@[simp] theorem entries_conditional (owner : String) (c : Proof) (branch : Option Proof) :
    (conditional owner c branch).entries = c.entries ++ entries? branch := by
  cases branch <;> rfl

@[simp] theorem entries_group (c : Claim) (membership : Option Proof) (members : List (Member Proof))
    (n d : Nat) (o : Origin) : (group c membership members n d o).entries
      = entries? membership ++ members.flatMap (·.proof.entries) ++ [.claim c] := by
  rw [← entriesOfMembers_eq]
  cases membership <;> rfl

@[simp] theorem entries_annotated (p : Proof) (note : String) : (annotated p note).entries = p.entries := rfl

/-- What a proof says besides its parts. -/
def own? : Proof → Option Entry
  | .claim c => some (.claim c)
  | .assumption t => some (.assumption t)
  | .failure t => some (.failure t)
  | .implies _ c _ _ => some (.claim c)
  | .group c _ _ _ _ _ => some (.claim c)
  | _ => none

theorem entries_eq (p : Proof) : p.entries = p.children.flatMap entries ++ p.own?.toList := by
  cases p with
  | conditional owner c branch => cases branch <;> simp [children, own?]
  | group c membership members n d o => cases membership <;> simp [children, own?, List.flatMap_map]
  | _ => simp [children, own?]

theorem claims_eq_children (p : Proof) :
    p.claims = p.children.flatMap claims ++ (p.own?.bind Entry.claim?).toList := by
  cases p with
  | conj items => simp [claims, claimsOfAll_eq, children, own?]
  | conditional owner c branch => cases branch <;> simp [claims, children, own?]
  | group c membership members n d o =>
    cases membership <;> simp [claims, claimsOfMembers_eq, children, own?, Entry.claim?, List.flatMap_map]
  | _ => simp [claims, children, own?, Entry.claim?]

theorem preorder_eq_children (p : Proof) : p.preorder = p :: p.children.flatMap preorder := by
  cases p with
  | conj items => simp [preorder, preorderOfAll_eq, children]
  | conditional owner c branch => cases branch <;> simp [preorder, children]
  | group c membership members n d o =>
    cases membership <;> simp [preorder, preorderOfMembers_eq, children, List.flatMap_map]
  | _ => simp [preorder, children]

theorem claims_eq (p : Proof) : p.claims = p.entries.filterMap Entry.claim? := by
  induction p using induct_children with
  | step p ih =>
    rw [claims_eq_children, entries_eq, List.filterMap_append, List.filterMap_flatMap, List.flatMap_congr ih]
    cases p.own? with
    | none => rfl
    | some e => cases e <;> rfl

theorem mem_claims {p : Proof} {c : Claim} : c ∈ p.claims ↔ .claim c ∈ p.entries := by
  rw [claims_eq, List.mem_filterMap]
  constructor
  · rintro ⟨e, he, hc⟩
    cases e <;> simp only [Entry.claim?, Option.some.injEq, reduceCtorEq] at hc
    exact hc ▸ he
  · exact fun h => ⟨_, h, rfl⟩

theorem failureCount_eq (p : Proof) : p.failureCount = p.entries.countP Entry.isFailure := by
  unfold failureCount
  induction p using induct_children with
  | step p ih =>
    have own : (if p.isFailure then 1 else 0) = p.own?.toList.countP Entry.isFailure := by
      cases p <;> rfl
    rw [preorder_eq_children, List.countP_cons, own, entries_eq, List.countP_append, List.countP_flatMap,
      List.countP_flatMap]
    exact congrArg (List.sum · + _) (List.map_congr_left ih)

theorem failureCount_eq_zero {p : Proof} : p.failureCount = 0 ↔ ∀ e ∈ p.entries, e.isFailure = false := by
  rw [failureCount_eq, List.countP_eq_zero]
  simp only [Bool.not_eq_true]

theorem itemwise_entries : Itemwise entries := entries_conj

theorem entries?_eq (o : Option Proof) : entries? o = o.elim [] entries := by
  cases o <;> rfl

theorem entries_of_isEmpty {p : Proof} (h : p.isEmpty = true) : p.entries = [] := itemwise_entries.of_isEmpty h

theorem entries?_all? (items : List Proof) : entries? (all? items) = items.flatMap entries := by
  rw [entries?_eq, itemwise_entries.elim_all?]

@[simp] theorem entries_all (items : List Proof) : (all items).entries = items.flatMap entries :=
  itemwise_entries.all items

@[simp] theorem entries_because (premise : Option Proof) (c : Claim) (d : Nat) (o : Origin) :
    (because premise c d o).entries = entries? premise ++ [.claim c] := by
  cases premise <;> rfl

/-! ### Normal form -/

theorem children_mapChildren (f : Proof → Proof) (p : Proof) :
    (mapChildren f p).children = p.children.map f := by
  cases p with
  | conditional owner c branch => cases branch <;> simp [children]
  | group c membership members n d o => cases membership <;> simp [children, Member.map]
  | _ => simp [children]

theorem own?_mapChildren (f : Proof → Proof) (p : Proof) : (mapChildren f p).own? = p.own? := by
  cases p <;> simp [own?]

theorem entries_mapChildren (f : Proof → Proof) (p : Proof) :
    (mapChildren f p).entries = p.children.flatMap (fun q => (f q).entries) ++ p.own?.toList := by
  rw [entries_eq, children_mapChildren, own?_mapChildren, List.flatMap_map]

theorem entries_transformUp {f : Proof → Proof} (hf : ∀ p, (f p).entries = p.entries) (p : Proof) :
    (transformUp f p).entries = p.entries := by
  induction p using induct_children with
  | step p ih => rw [transformUp_eq, hf, entries_mapChildren, List.flatMap_congr ih, ← entries_eq]

theorem entries_normalStep (p : Proof) : (normalStep p).entries = p.entries := by
  cases p with
  | conj items => rw [normalStep, entries_all, itemwise_entries.flatMap_filter, entries_conj]
  | implies p c d o => cases h : p.isEmpty <;> simp [normalStep, h, entries_of_isEmpty]
  | conditional owner c branch =>
    cases h : c.isEmpty <;>
      simp [normalStep, h, entries_of_isEmpty, itemwise_entries.getD, itemwise_entries.elim_filter, entries?_eq]
  | _ => rfl

theorem entries_normalize (p : Proof) : p.normalize.entries = p.entries :=
  entries_transformUp entries_normalStep p

end Proof

end Rationale
