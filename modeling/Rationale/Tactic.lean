import Rationale.Choice
import Rationale.Proof.Normal
import Rationale.Text.Natural

/-!
Tactics: rewrites that shape a finished proof for its reader. Each of them leaves the proof in normal
form, and none of them changes what it concludes.
-/

namespace Rationale

/-- Which members of a group comparison stay: those with the highest or with the lowest values. -/
inductive RelevanceMode
  | top (count : Nat)
  | bottom (count : Nat)
deriving DecidableEq

namespace RelevanceMode

def name : RelevanceMode → String
  | .top n => "top_" ++ toString n
  | .bottom n => "bottom_" ++ toString n

def count : RelevanceMode → Nat
  | .top n => n
  | .bottom n => n

/-- Reads `top_N` or `bottom_N` with a positive `N` of at most 64 bits. -/
def parse (s : String) : Except ChoiceError RelevanceMode :=
  let read (lead : String) (mode : Nat → RelevanceMode) : Option RelevanceMode :=
    if lead.toList.isPrefixOf s.toList then
      match Text.natural? UInt64.size (String.ofList (s.toList.drop lead.toList.length)) with
      | some (n + 1) => some (mode (n + 1))
      | _ => none
    else none
  match read "top_" .top, read "bottom_" .bottom with
  | some mode, _ => .ok mode
  | none, some mode => .ok mode
  | none, none => .error ⟨"relevance mode", s, "top_N, bottom_N with N > 0"⟩

/-- Whether a member with value `x` may stand before one with value `y`. Members without a value stand
last in both modes. -/
def mayPrecede : RelevanceMode → Option Number → Option Number → Bool
  | _, _, none => true
  | _, none, some _ => false
  | .top _, some x, some y => (y.compareTotal x).isLE
  | .bottom _, some x, some y => (x.compareTotal y).isLE

end RelevanceMode

inductive Tactic
  /-- Keeps the most relevant members of every group comparison. -/
  | onlyRelevant (mode : RelevanceMode)
  /-- States quantitative values without their justification. -/
  | skipQuantitative
  /-- Puts a fixed phrase in place of justified quantitative values. -/
  | substituteQuantitative (phrase : String)
  /-- Says once what neighbouring proofs say alike. -/
  | compactSame
  /-- Leaves out why a condition holds, except in the explanations of the given adjectives. -/
  | skipCondition (exceptOn : List String)

/-! ### Relevance -/

namespace Proof

/-- The members in order of relevance; equally relevant ones keep their order. -/
def ranked (mode : RelevanceMode) (members : List (Member Proof)) : List (Member Proof) :=
  members.mergeSort fun x y => mode.mayPrecede x.relevance y.relevance

def onlyRelevantStep (mode : RelevanceMode) : Proof → Proof
  | .group c membership members omitted d o =>
    .group c membership ((ranked mode members).take mode.count)
      (omitted + (members.length - mode.count)) d o
  | p => p

/-! ### Quantities -/

def isQuantitative : Proof → Bool
  | .implies _ _ _ o => o.kind == .quantitative
  | _ => false

/-- The bare conclusion of a justified quantitative value. -/
def bareQuantity? : Proof → Option Proof
  | .implies _ c _ o => if o.kind = .quantitative then some (.claim c) else none
  | _ => none

/-- The items without the assumptions that an earlier item already states. -/
def withoutRepeatedAssumptions (items : List Proof) : List Proof :=
  items.foldl (fun kept p => if p.isAssumption && kept.any (·.same p) then kept else kept ++ [p]) []

def dedupStep : Proof → Proof
  | .conj items => .conj (withoutRepeatedAssumptions items)
  | p => p

/-- The proof with a phrase for every justified quantitative value. A proof that itself justifies one
keeps its conclusion and takes the phrase as its premise. -/
def substituteQuantities (phrase : String) (p : Proof) : Proof :=
  match p with
  | .implies premise c d o =>
    if o.kind = .quantitative then .implies (.assumption phrase) c d o
    else inside (.implies premise c d o)
  | p => inside p
where
  inside (p : Proof) : Proof :=
    (p.rewrite fun q => if q.isQuantitative then some (.assumption phrase) else none).transformUp dedupStep

/-! ### Compaction -/

/-- Counts `p` among the proofs met before. -/
def tally (p : Proof) : List (Proof × Nat) → List (Proof × Nat)
  | [] => [(p, 1)]
  | (q, n) :: rest => if q.same p then (q, n + 1) :: rest else (q, n) :: tally p rest

/-- A proof that stands for `n` equal ones. -/
def repeated : Proof × Nat → Proof
  | (p, n) => if 1 < n then .annotated p ("×" ++ toString n) else p

/-- The label that stands for a member in the comparison of members. -/
def mask : String := String.singleton (Char.ofNat 0)

/-- The proof of a member with its own label masked. -/
def maskedProof (x : Member Proof) : Proof :=
  match x.labels with
  | label :: _ => x.proof.relabel label mask
  | [] => x.proof

/-- Adds a member to those kept: its labels to the first one with the same masked proof, or itself. -/
def fold (x : Member Proof) : List (Proof × Member Proof) → List (Proof × Member Proof)
  | [] => [(maskedProof x, x)]
  | (key, kept) :: rest =>
    if key.same (maskedProof x) then (key, { kept with labels := kept.labels ++ x.labels }) :: rest
    else (key, kept) :: fold x rest

def compactStep : Proof → Proof
  | .conj items => .conj ((items.foldl (fun seen p => tally p seen) []).map repeated)
  | .group c membership members n d o =>
    .group c membership ((members.foldl (fun kept x => fold x kept) []).map (·.2)) n d o
  | p => p

/-! ### Conditions -/

def skipConditionStep (exceptOn : List String) : Proof → Proof
  | .conditional owner c branch =>
    if exceptOn.contains owner then .conditional owner c branch else branch.getD nothing
  | p => p

end Proof

/-! ### Application -/

namespace Tactic

def name : Tactic → String
  | .onlyRelevant _ => "only relevant comparisons"
  | .skipQuantitative => "skip quantitative explanations"
  | .substituteQuantitative _ => "substitute quantitative explanations"
  | .compactSame => "compact same explanations"
  | .skipCondition _ => "skip condition statement"

/-- The adjectives a tactic names. -/
def references : Tactic → List String
  | .skipCondition exceptOn => exceptOn
  | _ => []

/-- The rewrite of a tactic, before the normal form is taken. -/
def rewrite : Tactic → Proof → Proof
  | .onlyRelevant mode, p => p.transformUp (Proof.onlyRelevantStep mode)
  | .skipQuantitative, p => p.rewrite Proof.bareQuantity?
  | .substituteQuantitative phrase, p => p.substituteQuantities phrase
  | .compactSame, p => p.transformUp Proof.compactStep
  | .skipCondition exceptOn, p => p.transformUp (Proof.skipConditionStep exceptOn)

def apply (t : Tactic) (p : Proof) : Proof := (t.rewrite p).normalize

/-- Applies tactics in their order. -/
def applyAll (ts : List Tactic) (p : Proof) : Proof := ts.foldl (fun p t => t.apply p) p

end Tactic

end Rationale
