import Rationale.Proof.Rewrite

/-!
The normal form of a proof: no conjunction of nothing or of one thing, none inside another, no
implication from nothing, and no conditional without a condition. Also the rewrites of labels and the
equality of proofs on which the merging of proofs rests.
-/

namespace Rationale.Proof

/-! ### Normal form -/

/-- The normal form of a node whose parts are in normal form. -/
def normalStep : Proof → Proof
  | .conj items => all (items.filter (!·.isEmpty))
  | .implies p c d o => if p.isEmpty then .claim c else .implies p c d o
  | .conditional o c branch =>
    let branch := branch.filter (!·.isEmpty)
    if c.isEmpty then branch.getD nothing else .conditional o c branch
  | p => p

def normalize (p : Proof) : Proof := p.transformUp normalStep

/-! ### Labels -/

/-- The node with the label `source` replaced by `target` in the claim it states. -/
def relabelStep (source target : String) : Proof → Proof
  | .claim c => .claim (c.relabel source target)
  | .implies p c d o => .implies p (c.relabel source target) d o
  | .group c membership members n d o => .group (c.relabel source target) membership members n d o
  | p => p

/-- The proof with the label `source` replaced by `target` in every claim. Proofs about two members of a
group become equal when the label of each is masked. -/
def relabel (source target : String) (p : Proof) : Proof := p.transformUp (relabelStep source target)

/-! ### Equality -/

/-- Whether two relevance values are equal as numbers. -/
def sameRelevance : Option Number → Option Number → Bool
  | none, none => true
  | some x, some y => x.eq y
  | _, _ => false

mutual

/-- Whether two proofs are equal, their relevance values as numbers: the two zeros are equal, and a
proof that holds what is not a number equals none, itself included. -/
def same : Proof → Proof → Bool
  | .claim c, .claim c' => c == c'
  | .assumption t, .assumption t' => t == t'
  | .failure t, .failure t' => t == t'
  | .conj items, .conj items' => sameAll items items'
  | .implies p c d o, .implies p' c' d' o' => p.same p' && c == c' && d == d' && o == o'
  | .conditional o c branch, .conditional o' c' branch' =>
    o == o' && c.same c' && (match branch, branch' with
      | none, none => true
      | some p, some p' => p.same p'
      | _, _ => false)
  | .group c membership members n d o, .group c' membership' members' n' d' o' =>
    c == c' && (match membership, membership' with
      | none, none => true
      | some p, some p' => p.same p'
      | _, _ => false) && sameMembers members members' && n == n' && d == d' && o == o'
  | .annotated p note, .annotated p' note' => p.same p' && note == note'
  | _, _ => false

def sameAll : List Proof → List Proof → Bool
  | [], [] => true
  | p :: rest, p' :: rest' => p.same p' && sameAll rest rest'
  | _, _ => false

def sameMembers : List (Member Proof) → List (Member Proof) → Bool
  | [], [] => true
  | ⟨labels, relevance, p⟩ :: rest, x :: rest' =>
    labels == x.labels && sameRelevance relevance x.relevance && p.same x.proof && sameMembers rest rest'
  | _, _ => false

end

end Rationale.Proof
