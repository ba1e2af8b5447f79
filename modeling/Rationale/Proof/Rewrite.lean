import Rationale.Proof.Basic

/-!
Rewriting of proofs, from the leaves up (`transformUp`), from the root down (`rewrite`), and one level
deep (`mapChildren`). All three visit children in the order in which they are argued. The versions in a
monad let the function look at the nodes as it meets them.
-/

namespace Rationale

/-- The member with `f` applied to its proof. -/
def Member.mapM {m : Type → Type} [Monad m] {α β : Type} (f : α → m β) (x : Member α) : m (Member β) := do
  return ⟨x.labels, x.relevance, ← f x.proof⟩

def Member.map {α β : Type} (f : α → β) (x : Member α) : Member β := ⟨x.labels, x.relevance, f x.proof⟩

namespace Proof

variable {m : Type → Type} [Monad m]

/-! ### In a monad -/

/-- The proof with `f` applied to its direct parts. -/
def mapChildrenM (f : Proof → m Proof) : Proof → m Proof
  | .conj items => do return .conj (← items.mapM f)
  | .implies p c d o => do return .implies (← f p) c d o
  | .conditional o c branch => do
    let c ← f c
    return .conditional o c (← branch.mapM f)
  | .group c membership members n d o => do
    let membership ← membership.mapM f
    return .group c membership (← members.mapM (Member.mapM f)) n d o
  | .annotated p note => do return .annotated (← f p) note
  | leaf => return leaf

mutual

/-- The proof rewritten by `f`, which sees each node after its parts were rewritten. -/
def transformUpM (f : Proof → m Proof) : Proof → m Proof
  | .claim c => f (.claim c)
  | .assumption t => f (.assumption t)
  | .failure t => f (.failure t)
  | .conj items => do
    let items ← transformAllUpM f items
    f (.conj items)
  | .implies p c d o => do
    let p ← transformUpM f p
    f (.implies p c d o)
  | .conditional o c branch => do
    let c ← transformUpM f c
    let branch ← match branch with
      | none => pure none
      | some p => some <$> transformUpM f p
    f (.conditional o c branch)
  | .group c membership members n d o => do
    let membership ← match membership with
      | none => pure none
      | some p => some <$> transformUpM f p
    let members ← transformMembersUpM f members
    f (.group c membership members n d o)
  | .annotated p note => do
    let p ← transformUpM f p
    f (.annotated p note)

def transformAllUpM (f : Proof → m Proof) : List Proof → m (List Proof)
  | [] => pure []
  | p :: rest => do
    let p ← transformUpM f p
    return p :: (← transformAllUpM f rest)

def transformMembersUpM (f : Proof → m Proof) : List (Member Proof) → m (List (Member Proof))
  | [] => pure []
  | ⟨labels, relevance, p⟩ :: rest => do
    let p ← transformUpM f p
    return ⟨labels, relevance, p⟩ :: (← transformMembersUpM f rest)

end

mutual

/-- The proof rewritten by `f`, which sees each node before its parts: a node it replaces is not looked
into, and a node it leaves alone keeps its place around its rewritten parts. -/
def rewriteM (f : Proof → m (Option Proof)) (p : Proof) : m Proof := do
  match ← f p with
  | some q => return q
  | none =>
    match p with
    | .conj items => return .conj (← rewriteAllM f items)
    | .implies p c d o => return .implies (← rewriteM f p) c d o
    | .conditional o c branch => do
      let c ← rewriteM f c
      let branch ← match branch with
        | none => pure none
        | some p => some <$> rewriteM f p
      return .conditional o c branch
    | .group c membership members n d o => do
      let membership ← match membership with
        | none => pure none
        | some p => some <$> rewriteM f p
      return .group c membership (← rewriteMembersM f members) n d o
    | .annotated p note => return .annotated (← rewriteM f p) note
    | leaf => return leaf

def rewriteAllM (f : Proof → m (Option Proof)) : List Proof → m (List Proof)
  | [] => pure []
  | p :: rest => do
    let p ← rewriteM f p
    return p :: (← rewriteAllM f rest)

def rewriteMembersM (f : Proof → m (Option Proof)) : List (Member Proof) → m (List (Member Proof))
  | [] => pure []
  | ⟨labels, relevance, p⟩ :: rest => do
    let p ← rewriteM f p
    return ⟨labels, relevance, p⟩ :: (← rewriteMembersM f rest)

end

/-! ### Pure -/

def mapChildren (f : Proof → Proof) (p : Proof) : Proof := (mapChildrenM (m := Id) f p).run

def transformUp (f : Proof → Proof) (p : Proof) : Proof := (transformUpM (m := Id) f p).run

def rewrite (f : Proof → Option Proof) (p : Proof) : Proof := (rewriteM (m := Id) f p).run

theorem transformAllUp_eq (f : Proof → Proof) (items : List Proof) :
    (transformAllUpM (m := Id) f items).run = items.map (transformUp f) := by
  induction items with
  | nil => rfl
  | cons p rest ih => simp [transformAllUpM, transformUp, ih]

theorem transformMembersUp_eq (f : Proof → Proof) (members : List (Member Proof)) :
    (transformMembersUpM (m := Id) f members).run = members.map (Member.map (transformUp f)) := by
  induction members with
  | nil => rfl
  | cons x rest ih => simp [transformMembersUpM, transformUp, Member.map, ih]

theorem rewriteAll_eq (f : Proof → Option Proof) (items : List Proof) :
    (rewriteAllM (m := Id) f items).run = items.map (rewrite f) := by
  induction items with
  | nil => rfl
  | cons p rest ih => simp [rewriteAllM, rewrite, ih]

theorem rewriteMembers_eq (f : Proof → Option Proof) (members : List (Member Proof)) :
    (rewriteMembersM (m := Id) f members).run = members.map (Member.map (rewrite f)) := by
  induction members with
  | nil => rfl
  | cons x rest ih => simp [rewriteMembersM, rewrite, Member.map, ih]

/-! ### One node at a time -/

@[simp] theorem transformUp_claim (f : Proof → Proof) (c : Claim) :
    transformUp f (.claim c) = f (.claim c) := rfl

@[simp] theorem transformUp_assumption (f : Proof → Proof) (t : String) :
    transformUp f (.assumption t) = f (.assumption t) := rfl

@[simp] theorem transformUp_failure (f : Proof → Proof) (t : String) :
    transformUp f (.failure t) = f (.failure t) := rfl

@[simp] theorem transformUp_conj (f : Proof → Proof) (items : List Proof) :
    transformUp f (.conj items) = f (.conj (items.map (transformUp f))) := by
  rw [← transformAllUp_eq]; rfl

@[simp] theorem transformUp_implies (f : Proof → Proof) (p : Proof) (c : Claim) (d : Nat) (o : Origin) :
    transformUp f (.implies p c d o) = f (.implies (transformUp f p) c d o) := rfl

@[simp] theorem transformUp_conditional (f : Proof → Proof) (o : String) (c : Proof)
    (branch : Option Proof) : transformUp f (.conditional o c branch)
      = f (.conditional o (transformUp f c) (branch.map (transformUp f))) := by
  cases branch <;> rfl

@[simp] theorem transformUp_group (f : Proof → Proof) (c : Claim) (membership : Option Proof)
    (members : List (Member Proof)) (n d : Nat) (o : Origin) :
    transformUp f (.group c membership members n d o) = f (.group c (membership.map (transformUp f))
      (members.map (Member.map (transformUp f))) n d o) := by
  rw [← transformMembersUp_eq]; cases membership <;> rfl

@[simp] theorem transformUp_annotated (f : Proof → Proof) (p : Proof) (note : String) :
    transformUp f (.annotated p note) = f (.annotated (transformUp f p) note) := rfl

theorem rewrite_of_some {f : Proof → Option Proof} {p q : Proof} (h : f p = some q) :
    rewrite f p = q := by
  cases p <;> simp [rewrite, rewriteM, h, Id.run, pure, bind]

end Proof

end Rationale
