/-!
Results that are values or errors. A step after another one gives a value where both do, and the error of the first that
has none; what is made of a value leaves an error as it is, and what is made of an error leaves a value.
-/

namespace Rationale

variable {ε ε' α β : Type} {r : Except ε α}

theorem bind_eq_ok {f : α → Except ε β} {y : β} : (r >>= f) = .ok y ↔ ∃ x, r = .ok x ∧ f x = .ok y := by
  cases r <;> simp [bind, Except.bind]

theorem bind_eq_error {f : α → Except ε β} {e : ε} :
    (r >>= f) = .error e ↔ r = .error e ∨ ∃ x, r = .ok x ∧ f x = .error e := by
  cases r <;> simp [bind, Except.bind]

theorem map_eq_error {f : α → β} {e : ε} : r.map f = .error e ↔ r = .error e := by
  cases r <;> simp [Except.map]

theorem mapError_eq_ok {f : ε → ε'} {x : α} : r.mapError f = .ok x ↔ r = .ok x := by
  cases r with
  | error e => exact iff_of_false (fun h => by cases h) fun h => by cases h
  | ok y => exact ⟨fun h => by cases h; rfl, fun h => by cases h; rfl⟩

theorem mapError_eq_error {f : ε → ε'} {e' : ε'} : r.mapError f = .error e' ↔ ∃ e, r = .error e ∧ e' = f e := by
  cases r with
  | error e =>
    constructor
    · intro h
      exact ⟨e, rfl, (Except.error.inj h).symm⟩
    · rintro ⟨e, ⟨⟩, rfl⟩
      rfl
  | ok x =>
    refine iff_of_false (fun h => by cases h) ?_
    rintro ⟨e, ⟨⟩, -⟩

theorem toOption_eq_some {x : α} : r.toOption = some x ↔ r = .ok x := by
  cases r <;> simp [Except.toOption]

/-- A loop that comes to its end accepts every item. -/
theorem forM_eq_ok {f : α → Except ε Unit} {xs : List α} : xs.forM f = .ok () ↔ ∀ x ∈ xs, f x = .ok () := by
  induction xs with
  | nil => exact ⟨fun _ => List.forall_mem_nil _, fun _ => rfl⟩
  | cons x xs ih =>
    change (f x >>= fun _ => xs.forM f) = .ok () ↔ _
    rw [bind_eq_ok, List.forall_mem_cons, ← ih]
    exact ⟨fun ⟨(), first, rest⟩ => ⟨first, rest⟩, fun ⟨first, rest⟩ => ⟨(), first, rest⟩⟩

end Rationale
