import Rationale.Proofs.Evaluation

/-!
Room for chains of adjectives. An evaluation that comes to its end, with a value or with an error, comes to the same end
with more room; only one that was given up can come to another.
-/

namespace Rationale

variable {α β : Type}

/-- The second result is the first, if that is not an evaluation given up. -/
def Follows (r r' : Except EvaluationError α) : Prop := Settled r → r' = r

theorem Settled.of_bind {r : Except EvaluationError α} {f : α → Except EvaluationError β} (h : Settled (r >>= f)) :
    Settled r := by
  rintro e rfl
  exact h e rfl

theorem Settled.of_dependent {r : Except EvaluationError α} {adjective node dependency : String}
    (h : Settled (r.mapError (.dependent adjective node dependency))) : Settled r := by
  intro e he
  rw [he] at h
  exact h (.dependent adjective node dependency e) rfl

namespace Follows

theorem refl (r : Except EvaluationError α) : Follows r r := fun _ => rfl

variable {r r' : Except EvaluationError α}

theorem bind {f f' : α → Except EvaluationError β} (h : Follows r r') (next : ∀ x, Follows (f x) (f' x)) :
    Follows (r >>= f) (r' >>= f') := by
  intro settled
  rw [h settled.of_bind]
  cases r with
  | error e => rfl
  | ok x => exact next x settled

theorem dependent (h : Follows r r') (adjective node dependency : String) :
    Follows (r.mapError (.dependent adjective node dependency)) (r'.mapError (.dependent adjective node dependency)) := by
  intro settled
  rw [h settled.of_dependent]

end Follows

theorem RankKind.verdict_follows {N : Type} (k : RankKind) {compare compare' : N → Except EvaluationError Bool}
    (h : ∀ m, Follows (compare m) (compare' m)) (members : List N) :
    Follows (k.verdict compare members) (k.verdict compare' members) := by
  induction members with
  | nil => exact .refl _
  | cons m rest ih =>
    rw [verdict, verdict]
    refine (h m).bind fun holds => ?_
    split
    · exact ih
    · exact .refl _

variable {N : Type} [Node N]

theorem Evaluation.view_follows {value value' : Evaluation N} {name : String} {node : N}
    (h : Follows (value name node) (value' name node)) (read : Value N → Option α) (wanted : ValueKind) :
    Follows (value.view read wanted name node) (value'.view read wanted name node) :=
  h.bind fun _ => .refl _

namespace Framework

variable {F : Framework N}

theorem compareBy_follows {value value' : Evaluation N} (h : ∀ name node, Follows (value name node) (value' name node))
    (name : String) (a b : N) : Follows (F.compareBy value name a b) (F.compareBy value' name a b) := by
  unfold compareBy
  split
  · exact .refl _
  · split
    · exact ((Evaluation.view_follows (h _ a) _ _).dependent _ _ _).bind fun x =>
        ((Evaluation.view_follows (h _ b) _ _).dependent _ _ _).bind fun y => .refl _
    · exact .refl _

theorem evaluateWithin_follows (depth : Nat) (name : String) (node : N) :
    Follows (F.evaluateWithin depth name node) (F.evaluateWithin (depth + 1) name node) := by
  induction depth generalizing name node with
  | zero =>
    intro settled
    cases settled _ rfl
  | succ depth ih =>
    rw [evaluateWithin, evaluateWithin]
    split
    · exact .refl _
    · split
      · exact .refl _
      · refine ((Evaluation.view_follows (ih _ node) _ _).dependent _ _ _).bind fun members => ?_
        exact (RankKind.verdict_follows _ (fun m => (compareBy_follows ih _ node m).dependent _ _ _) members).bind
          fun _ => .refl _
      · exact .refl _

/-- An evaluation that comes to its end comes to the same end with more room. -/
theorem evaluateWithin_of_le {depth depth' : Nat} (hle : depth ≤ depth') {name : String} {node : N}
    (settled : Settled (F.evaluateWithin depth name node)) :
    F.evaluateWithin depth' name node = F.evaluateWithin depth name node := by
  obtain ⟨more, rfl⟩ := Nat.exists_eq_add_of_le hle
  induction more with
  | zero => rfl
  | succ more ih =>
    have same := ih (Nat.le_add_right _ _)
    rw [← Nat.add_assoc, evaluateWithin_follows (depth + more) name node (same ▸ settled), same]

end Framework

end Rationale
