import Rationale.Claim
import Rationale.Number.Basic

/-!
Proofs: the trees an explanation consists of. Leaves are claims, assumptions and failures; inner nodes
join proofs, draw a conclusion from them, choose a branch on a condition, or compare a node with every
member of a group. `claims` reads a proof in the order it is argued, premises before what they support.
-/

namespace Rationale

/-- The kind of adjective a conclusion is about. -/
inductive OriginKind
  | boolean
  | pointer
  | quantitative
  | nodesGroup
  | comparison
  | rank
  | auxiliary
deriving DecidableEq

/-- The adjective a conclusion was drawn for. -/
structure Origin where
  adjective : String
  kind : OriginKind
deriving DecidableEq

/-- One member of a group comparison: the nodes it stands for, the value that ranks it among the
members, and its proof. -/
structure Member (α : Type) where
  labels : List String
  relevance : Option Number
  proof : α

inductive Proof
  | claim (c : Claim)
  | assumption (text : String)
  /-- A branch that could not be expanded, with the reason. -/
  | failure (text : String)
  | conj (items : List Proof)
  | implies (premise : Proof) (conclusion : Claim) (depth : Nat) (origin : Origin)
  /-- The proof of a condition in the explanation of `owner`, and of the branch it selects. -/
  | conditional (owner : String) (condition : Proof) (branch : Option Proof)
  /-- The comparison of a node with a group: why the group has its members, their comparisons, and how
  many of these were left out. -/
  | group (conclusion : Claim) (membership : Option Proof) (members : List (Member Proof))
      (omitted : Nat) (depth : Nat) (origin : Origin)
  | annotated (inner : Proof) (note : String)

namespace Proof

/-- The conjunction of nothing. -/
def nothing : Proof := .conj []

def isEmpty : Proof → Bool
  | .conj [] => true
  | _ => false

def isFailure : Proof → Bool
  | .failure _ => true
  | _ => false

def isAssumption : Proof → Bool
  | .assumption _ => true
  | _ => false

/-! ### Building -/

/-- The items of a conjunction, and any other proof as its own only item. -/
def conjuncts : Proof → List Proof
  | .conj items => items
  | p => [p]

/-- The conjunction of `items`, with conjunctions among them opened: nothing if nothing is left, and the
item itself if only one is. -/
def all? (items : List Proof) : Option Proof :=
  match items.flatMap conjuncts with
  | [] => none
  | [p] => some p
  | flat => some (.conj flat)

/-- The conjunction of `items`, possibly of nothing. -/
def all (items : List Proof) : Proof := (all? items).getD nothing

/-- The conclusion drawn from the premise, or stated alone if there is none. -/
def because (premise : Option Proof) (conclusion : Claim) (depth : Nat) (origin : Origin) : Proof :=
  match premise with
  | some p => .implies p conclusion depth origin
  | none => .claim conclusion

/-! ### Reading -/

/-- The claim a proof establishes, if it establishes exactly one. -/
def conclusion? : Proof → Option Claim
  | .claim c => some c
  | .implies _ c _ _ => some c
  | .group c _ _ _ _ _ => some c
  | .annotated p _ => p.conclusion?
  | _ => none

mutual

/-- Every claim of a proof, each conclusion after what supports it. -/
def claims : Proof → List Claim
  | .claim c => [c]
  | .assumption _ => []
  | .failure _ => []
  | .conj items => claimsOfAll items
  | .implies premise c _ _ => premise.claims ++ [c]
  | .conditional _ condition branch =>
    condition.claims ++ (match branch with
      | none => []
      | some p => p.claims)
  | .group c membership members _ _ _ =>
    (match membership with
      | none => []
      | some p => p.claims) ++ claimsOfMembers members ++ [c]
  | .annotated p _ => p.claims

def claimsOfAll : List Proof → List Claim
  | [] => []
  | p :: rest => p.claims ++ claimsOfAll rest

def claimsOfMembers : List (Member Proof) → List Claim
  | [] => []
  | ⟨_, _, p⟩ :: rest => p.claims ++ claimsOfMembers rest

end

mutual

/-- Every node of a proof, parents before children. -/
def preorder : Proof → List Proof
  | .claim c => [.claim c]
  | .assumption t => [.assumption t]
  | .failure t => [.failure t]
  | .conj items => .conj items :: preorderOfAll items
  | .implies p c d o => .implies p c d o :: p.preorder
  | .conditional o c branch =>
    .conditional o c branch :: c.preorder ++ (match branch with
      | none => []
      | some p => p.preorder)
  | .group c membership members n d o =>
    .group c membership members n d o :: (match membership with
      | none => []
      | some p => p.preorder) ++ preorderOfMembers members
  | .annotated p note => .annotated p note :: p.preorder

def preorderOfAll : List Proof → List Proof
  | [] => []
  | p :: rest => p.preorder ++ preorderOfAll rest

def preorderOfMembers : List (Member Proof) → List Proof
  | [] => []
  | ⟨_, _, p⟩ :: rest => p.preorder ++ preorderOfMembers rest

end

/-- How many branches of a proof could not be expanded. -/
def failureCount (p : Proof) : Nat := p.preorder.countP isFailure

theorem claimsOfAll_eq (items : List Proof) : claimsOfAll items = items.flatMap claims := by
  induction items with
  | nil => rfl
  | cons p rest ih => simp [claimsOfAll, ih]

theorem claimsOfMembers_eq (members : List (Member Proof)) :
    claimsOfMembers members = members.flatMap (·.proof.claims) := by
  induction members with
  | nil => rfl
  | cons m rest ih => simp [claimsOfMembers, ih]

theorem preorderOfAll_eq (items : List Proof) : preorderOfAll items = items.flatMap preorder := by
  induction items with
  | nil => rfl
  | cons p rest ih => simp [preorderOfAll, ih]

theorem preorderOfMembers_eq (members : List (Member Proof)) :
    preorderOfMembers members = members.flatMap (·.proof.preorder) := by
  induction members with
  | nil => rfl
  | cons m rest ih => simp [preorderOfMembers, ih]

end Proof

end Rationale
