import Mathlib.Data.List.Nodup
import Rationale.Proofs.Frames

/-!
Edits. A framework is built by calls that change it where it is, one step after the other, and a call that fails keeps
what it has changed so far. Every call does what the operation of its name gives, all of it or nothing; only adjectives
that are added together stay up to the first one that is refused. So the names of the adjectives stay distinct and not
empty, and what a call is not about keeps its place.
-/

namespace Rationale

variable {N : Type}

namespace InPlace

variable {ε σ α : Type}

/-- What a call comes to that does all of an operation or nothing. -/
def whole (s : σ) : Except ε (α × σ) → EStateM.Result ε σ α
  | .ok (x, s') => .ok x s'
  | .error e => .error e s

/-- What a call leaves, whether or not it failed. -/
def left : EStateM.Result ε σ α → σ
  | .ok _ s => s
  | .error _ s => s

theorem whole_eq_error {s s' : σ} {r : Except ε (α × σ)} {e : ε} (h : whole s r = .error e s') : s' = s := by
  match r with
  | .ok (x, _) => cases h
  | .error _ => cases h; rfl

theorem whole_map_eq_ok {s s' : σ} {r : Except ε σ} (h : whole s (r.map ((), ·)) = .ok () s') : r = .ok s' := by
  match r with
  | .ok _ => cases h; rfl
  | .error _ => cases h

end InPlace

/-- A call that changes a framework where it is. -/
abbrev Editing (N : Type) := EStateM FrameworkError (Framework N)

namespace Editing

/-- Changes the first adjective with a name. -/
def change (name : String) (f : Adjective N → Adjective N) : Editing N Unit := do
  match (← get).adjectives.findIdx? (·.name == name) with
  | none => throw (.unknownAdjective name)
  | some i => modify fun F => { F with adjectives := F.adjectives.modify i f }

def add (a : Adjective N) : Editing N Unit := do
  if a.name.isEmpty then throw .emptyName
  if ((← get).adjective? a.name).isSome then throw (.duplicateAdjective a.name)
  modify fun F => { F with adjectives := F.adjectives ++ [a] }

/-- Adds one adjective after the other. -/
def addAll : List (Adjective N) → Editing N Unit
  | [] => pure ()
  | a :: rest => do
    add a
    addAll rest

/-- Takes out the first adjective with a name. -/
def remove (name : String) : Editing N (Adjective N) := do
  match (← get).adjective? name with
  | none => throw (.unknownAdjective name)
  | some a =>
    modify fun F => { F with adjectives := F.adjectives.eraseIdx (F.adjectives.findIdx (·.name == name)) }
    return a

def rename (name newName : String) : Editing N Unit := do
  if newName.isEmpty then throw .emptyName
  if name ≠ newName ∧ ((← get).adjective? newName).isSome then throw (.duplicateAdjective newName)
  change name fun a => { a with name := newName }
  if (← get).main = some name then modify fun F => { F with main := some newName }

end Editing

/-- A call on a framework, with what it is given. -/
inductive Edit (N : Type)
  | add (a : Adjective N)
  | addAll (adjectives : List (Adjective N))
  | remove (name : String)
  | rename (name newName : String)
  | setGetter (name : String) (getter : Getter N)
  | addTactic (t : Tactic)
  | addAdjectiveTactic (name : String) (t : Tactic)

namespace Edit

def call : Edit N → Editing N Unit
  | .add a => Editing.add a
  | .addAll adjectives => Editing.addAll adjectives
  | .remove name => do let _ ← Editing.remove name
  | .rename name newName => Editing.rename name newName
  | .setGetter name getter => Editing.change name fun a => { a with getter := some getter }
  | .addTactic t => modify fun F => { F with tactics := F.tactics ++ [t] }
  | .addAdjectiveTactic name t => Editing.change name fun a => { a with tactics := a.tactics ++ [t] }

/-- What the operation of the same name comes to. -/
def outcome (F : Framework N) : Edit N → EStateM.Result FrameworkError (Framework N) Unit
  | .add a => InPlace.whole F ((F.add a).map ((), ·))
  | .addAll adjectives =>
    match F.addAll adjectives with
    | (F', none) => .ok () F'
    | (F', some e) => .error e F'
  | .remove name => InPlace.whole F ((F.remove name).map ((), ·.2))
  | .rename name newName => InPlace.whole F ((F.rename name newName).map ((), ·))
  | .setGetter name getter => InPlace.whole F ((F.setGetter name getter).map ((), ·))
  | .addTactic t => .ok () (F.addTactic t)
  | .addAdjectiveTactic name t => InPlace.whole F ((F.addAdjectiveTactic name t).map ((), ·))

def leave (F : Framework N) (edit : Edit N) : Framework N := InPlace.left (edit.call.run F)

/-- The names a call is about. -/
def names : Edit N → List String
  | .add a => [a.name]
  | .addAll adjectives => adjectives.map (·.name)
  | .remove name => [name]
  | .rename name newName => [name, newName]
  | .setGetter name _ => [name]
  | .addTactic _ => []
  | .addAdjectiveTactic name _ => [name]

end Edit

namespace Framework

/-- The framework after calls, failing ones included. -/
def edited (F : Framework N) (edits : List (Edit N)) : Framework N := edits.foldl Edit.leave F

/-- The adjectives that do not have one of the names, in their order. -/
def besides (F : Framework N) (names : List String) : List (Adjective N) :=
  F.adjectives.filter fun a => !names.contains a.name

/-- The names of the adjectives are distinct and not empty. -/
structure WellNamed (F : Framework N) : Prop where
  named : ∀ a ∈ F.adjectives, a.name ≠ ""
  distinct : (F.adjectives.map (·.name)).Nodup

theorem adjective?_eq_none {F : Framework N} {name : String} :
    F.adjective? name = none ↔ ∀ a ∈ F.adjectives, a.name ≠ name := by
  simp only [adjective?, List.find?_eq_none, beq_iff_eq, ne_eq]

/-- The adjective stands between the others, and none of them has its name. -/
structure Stands (F : Framework N) (before : List (Adjective N)) (a : Adjective N) (after : List (Adjective N)) :
    Prop where
  adjectives : F.adjectives = before ++ a :: after
  before : ∀ b ∈ before, b.name ≠ a.name
  after : ∀ b ∈ after, b.name ≠ a.name

section Places
variable {F : Framework N} {before after : List (Adjective N)} {a : Adjective N}

theorem exists_stands (distinct : (F.adjectives.map (·.name)).Nodup) {name : String} (h : F.adjective? name = some a) :
    a.name = name ∧ ∃ before after, F.Stands before a after := by
  refine ⟨adjective?_name h, ?_⟩
  obtain ⟨before, after, split⟩ := List.append_of_mem (adjective?_mem h)
  rw [split, List.map_append, List.map_cons, List.nodup_middle, List.nodup_cons, ← List.map_append] at distinct
  have others : ∀ b ∈ before ++ after, b.name ≠ a.name := fun b hb same =>
    distinct.1 (same ▸ List.mem_map_of_mem hb)
  exact ⟨before, after, split, (List.forall_mem_append.mp others).1, (List.forall_mem_append.mp others).2⟩

namespace Stands

variable (h : F.Stands before a after)

include h

theorem mem : a ∈ F.adjectives := h.adjectives ▸ List.mem_append_right _ List.mem_cons_self

theorem findIdx? : F.adjectives.findIdx? (·.name == a.name) = some before.length := by
  have skipped := List.findIdx?_eq_none_iff.mpr fun b hb => beq_eq_false_iff_ne.mpr (h.before b hb)
  rw [h.adjectives, List.findIdx?_append, skipped, List.findIdx?_cons]
  simp

theorem adjective? : F.adjective? a.name = some a := by
  rw [Framework.adjective?, h.adjectives, List.find?_append, List.find?_eq_none.mpr fun b hb => by simp [h.before b hb]]
  simp

theorem eraseP : F.adjectives.eraseP (·.name == a.name) = before ++ after := by
  rw [h.adjectives, List.eraseP_append_right _ fun b hb => by simp [h.before b hb]]
  simp

theorem map (f : Adjective N → Adjective N) :
    (F.adjectives.map fun b => if b.name == a.name then f b else b) = before ++ f a :: after := by
  have kept {bs : List (Adjective N)} (hbs : ∀ b ∈ bs, b.name ≠ a.name) :
      (bs.map fun b => if b.name == a.name then f b else b) = bs := by
    refine (List.map_congr_left fun b hb => ?_).trans (List.map_id bs)
    rw [beq_eq_false_iff_ne.mpr (hbs b hb)]
    rfl
  rw [h.adjectives, List.map_append, List.map_cons, kept h.before, kept h.after, beq_self_eq_true, if_pos rfl]

end Stands

end Places

/-! ### Calls and operations -/

section Operations
variable (F : Framework N) (name newName : String) (f : Adjective N → Adjective N)

theorem run_change : (Editing.change name f).run F = match F.adjectives.findIdx? (·.name == name) with
    | none => .error (.unknownAdjective name) F
    | some i => .ok () { F with adjectives := F.adjectives.modify i f } := by
  unfold Editing.change
  rw [EStateM.run_bind, EStateM.run_get]
  cases h : F.adjectives.findIdx? (·.name == name) <;> simp [h]

theorem modify_eq : F.modify name f = match F.adjective? name with
    | none => .error (.unknownAdjective name)
    | some _ => .ok { F with adjectives := F.adjectives.map fun a => if a.name == name then f a else a } := by
  unfold modify adjective
  cases F.adjective? name <;> rfl

theorem run_remove : (Editing.remove name).run F = match F.adjective? name with
    | none => .error (.unknownAdjective name) F
    | some a => .ok a { F with adjectives := F.adjectives.eraseIdx (F.adjectives.findIdx (·.name == name)) } := by
  unfold Editing.remove
  rw [EStateM.run_bind, EStateM.run_get]
  cases h : F.adjective? name <;> simp only [h] <;> rfl

theorem remove_eq : F.remove name = match F.adjective? name with
    | none => .error (.unknownAdjective name)
    | some a => .ok (a, { F with adjectives := F.adjectives.eraseP (·.name == name) }) := by
  unfold remove adjective
  cases F.adjective? name <;> rfl

theorem run_rename : (Editing.rename name newName).run F =
    if newName.isEmpty then .error .emptyName F
    else if name ≠ newName ∧ (F.adjective? newName).isSome then .error (.duplicateAdjective newName) F
    else match (Editing.change name fun a => { a with name := newName }).run F with
      | .ok () F' => .ok () { F' with main := if F'.main = some name then some newName else F'.main }
      | .error e F' => .error e F' := by
  unfold Editing.rename
  by_cases hempty : newName.isEmpty
  · simp [hempty]
  · by_cases hdup : name ≠ newName ∧ (F.adjective? newName).isSome
    · simp [hempty, hdup]
    · simp only [hempty, Bool.false_eq_true, ↓reduceIte, EStateM.run_bind, EStateM.run_get, hdup]
      cases (Editing.change name fun a => { a with name := newName }).run F with
      | error e F' => rfl
      | ok u F' => by_cases hmain : F'.main = some name <;> simp [hmain]

theorem rename_eq : F.rename name newName =
    if newName.isEmpty then .error .emptyName
    else if name ≠ newName ∧ (F.adjective? newName).isSome then .error (.duplicateAdjective newName)
    else (F.modify name fun a => { a with name := newName }).map fun F' =>
      { F' with main := if F.main = some name then some newName else F.main } := by
  unfold rename
  by_cases hempty : newName.isEmpty
  · simp only [hempty, if_true]; rfl
  · by_cases hdup : name ≠ newName ∧ (F.adjective? newName).isSome
    · simp only [hempty, hdup]; rfl
    · simp only [hempty, hdup]
      cases F.modify name fun a => { a with name := newName } <;> rfl

theorem run_add (a : Adjective N) : (Editing.add a).run F = InPlace.whole F ((F.add a).map ((), ·)) := by
  unfold Editing.add add
  by_cases hempty : a.name.isEmpty
  · simp [hempty, InPlace.whole, Except.map]
  · by_cases hdup : (F.adjective? a.name).isSome
    · simp [hempty, hdup, InPlace.whole, Except.map]
    · simp [hempty, hdup, InPlace.whole, Except.map]

theorem run_addAll (adjectives : List (Adjective N)) : (Editing.addAll adjectives).run F = match F.addAll adjectives with
    | (F', none) => .ok () F'
    | (F', some e) => .error e F' := by
  induction adjectives generalizing F with
  | nil => rfl
  | cons a rest ih =>
    rw [Editing.addAll, EStateM.run_bind, run_add, addAll]
    cases F.add a with
    | error e => rfl
    | ok F' => exact ih F'

end Operations

theorem change_of_none {F : Framework N} {name : String} (h : F.adjective? name = none)
    (f : Adjective N → Adjective N) : (Editing.change name f).run F = .error (.unknownAdjective name) F := by
  rw [run_change, List.findIdx?_eq_none_iff.mpr fun a ha => beq_eq_false_iff_ne.mpr (adjective?_eq_none.mp h a ha)]

namespace Stands

variable {F : Framework N} {before after : List (Adjective N)} {a : Adjective N} (h : F.Stands before a after)

include h

theorem run_change (f : Adjective N → Adjective N) :
    (Editing.change a.name f).run F = .ok () { F with adjectives := before ++ f a :: after } := by
  rw [Framework.run_change, h.findIdx?, h.adjectives]
  simp [List.modify_eq_take_drop]

theorem modify (f : Adjective N → Adjective N) :
    F.modify a.name f = .ok { F with adjectives := before ++ f a :: after } := by
  rw [modify_eq, h.adjective?, h.map]

theorem remove : F.remove a.name = .ok (a, { F with adjectives := before ++ after }) := by
  rw [remove_eq, h.adjective?, h.eraseP]

theorem run_remove : (Editing.remove a.name).run F = .ok a { F with adjectives := before ++ after } := by
  rw [Framework.run_remove, h.adjective?, List.findIdx_eq_getD_findIdx?, h.findIdx?, Option.getD_some, h.adjectives,
    List.eraseIdx_append_of_length_le (Nat.le_refl _)]
  simp

end Stands

section WellNamed
variable {F : Framework N} (distinct : (F.adjectives.map (·.name)).Nodup)

include distinct

/-- The first adjective with a name is the only one, so a change where it stands is a change wherever the name stands. -/
theorem change_whole (name : String) (f : Adjective N → Adjective N) :
    (Editing.change name f).run F = InPlace.whole F ((F.modify name f).map ((), ·)) := by
  cases ha : F.adjective? name with
  | none =>
    rw [change_of_none ha, modify_eq, ha]
    rfl
  | some a =>
    obtain ⟨rfl, before, after, stands⟩ := exists_stands distinct ha
    rw [stands.run_change, stands.modify]
    rfl

theorem remove_whole (name : String) : (Editing.remove name).run F = InPlace.whole F (F.remove name) := by
  cases ha : F.adjective? name with
  | none =>
    rw [run_remove, remove_eq, ha]
    rfl
  | some a =>
    obtain ⟨rfl, before, after, stands⟩ := exists_stands distinct ha
    rw [stands.run_remove, stands.remove]
    rfl

theorem rename_whole (name newName : String) :
    (Editing.rename name newName).run F = InPlace.whole F ((F.rename name newName).map ((), ·)) := by
  rw [run_rename, rename_eq]
  split
  · rfl
  · split
    · rfl
    · rw [change_whole distinct]
      rw [modify_eq]
      cases F.adjective? name <;> rfl

theorem call_eq (edit : Edit N) : edit.call.run F = edit.outcome F := by
  cases edit with
  | add a => exact run_add F a
  | addAll adjectives => exact run_addAll F adjectives
  | remove name =>
    rw [Edit.call, EStateM.run_bind, remove_whole distinct, Edit.outcome]
    cases F.remove name <;> rfl
  | rename name newName => exact rename_whole distinct name newName
  | setGetter name getter => exact change_whole distinct name _
  | addTactic t => rfl
  | addAdjectiveTactic name t => exact change_whole distinct name _

end WellNamed

/-! ### What calls keep -/

/-- What a call that is about some names keeps. -/
structure Kept (names : List String) (F F' : Framework N) : Prop where
  wellNamed : F.WellNamed → F'.WellNamed
  besides : F'.besides names = F.besides names

theorem add_accepts {F F' : Framework N} {a : Adjective N} (h : F.add a = .ok F') :
    a.name ≠ "" ∧ F.adjective? a.name = none := by
  unfold add at h
  split at h
  · cases h
  · rename_i hempty
    split at h
    · cases h
    · rename_i hdup
      exact ⟨hempty ∘ String.isEmpty_iff.mpr, by simpa using hdup⟩

namespace Kept

variable {names names' : List String} {F F' F'' : Framework N}

theorem refl (names : List String) (F : Framework N) : Kept names F F := ⟨id, rfl⟩

theorem trans (h : Kept names F F') (h' : Kept names F' F'') : Kept names F F'' :=
  ⟨h'.wellNamed ∘ h.wellNamed, h'.besides.trans h.besides⟩

theorem mono (h : Kept names F F') (sub : names ⊆ names') : Kept names' F F' where
  wellNamed := h.wellNamed
  besides := by
    have further (G : Framework N) : G.besides names' = (G.besides names).filter fun a => !names'.contains a.name := by
      rw [Framework.besides, Framework.besides, List.filter_filter]
      refine List.filter_congr fun a _ => ?_
      by_cases hmem : a.name ∈ names
      · simp [sub hmem]
      · simp [hmem]
    rw [further F', further F, h.besides]

theorem add {a : Adjective N} (h : F.add a = .ok F') : Kept [a.name] F F' := by
  obtain ⟨named, fresh⟩ := add_accepts h
  obtain rfl := add_eq_ok h
  refine ⟨fun wellNamed => ⟨?_, ?_⟩, ?_⟩
  · exact List.forall_mem_append.mpr ⟨wellNamed.named, List.forall_mem_singleton.mpr named⟩
  · rw [List.map_append, List.map_singleton, List.nodup_append]
    refine ⟨wellNamed.distinct, List.nodup_singleton _, fun x hx y hy => ?_⟩
    obtain ⟨b, hb, rfl⟩ := List.mem_map.mp hx
    rw [List.mem_singleton.mp hy]
    exact adjective?_eq_none.mp fresh b hb
  · simp [Framework.besides]

theorem addAll (F : Framework N) (adjectives : List (Adjective N)) :
    Kept (adjectives.map (·.name)) F (F.addAll adjectives).1 := by
  induction adjectives generalizing F with
  | nil => exact refl _ _
  | cons a rest ih =>
    rw [Framework.addAll]
    cases h : F.add a with
    | error e => exact refl _ _
    | ok F' => exact ((add h).mono (by simp)).trans ((ih F').mono (List.subset_cons_self _ _))

variable {before after : List (Adjective N)} {a b : Adjective N} (h : F.Stands before a after)

include h

theorem removed (adjectives : F'.adjectives = before ++ after) (touched : a.name ∈ names) : Kept names F F' where
  wellNamed wellNamed := by
    have sub : F'.adjectives.Sublist F.adjectives := by
      rw [adjectives, h.adjectives]
      exact (List.sublist_cons_self a after).append_left before
    exact ⟨fun c hc => wellNamed.named c (sub.subset hc), wellNamed.distinct.sublist (sub.map _)⟩
  besides := by simp [Framework.besides, adjectives, h.adjectives, touched]

theorem replaced (adjectives : F'.adjectives = before ++ b :: after) (named : b.name ≠ "")
    (apart : ∀ c ∈ before ++ after, c.name ≠ b.name) (touched : a.name ∈ names) (touched' : b.name ∈ names) :
    Kept names F F' where
  wellNamed wellNamed := by
    have others := wellNamed.named
    have distinct := wellNamed.distinct
    rw [h.adjectives] at others distinct
    rw [List.map_append, List.map_cons, List.nodup_middle, List.nodup_cons] at distinct
    constructor
    · rw [adjectives]
      exact List.forall_mem_append.mpr ⟨fun c hc => others c (List.mem_append_left _ hc),
        List.forall_mem_cons.mpr ⟨named, fun c hc => others c (List.mem_append_right _ (List.mem_cons_of_mem _ hc))⟩⟩
    · rw [adjectives, List.map_append, List.map_cons, List.nodup_middle, List.nodup_cons]
      refine ⟨fun hmem => ?_, distinct.2⟩
      rw [← List.map_append] at hmem
      obtain ⟨c, hc, same⟩ := List.mem_map.mp hmem
      exact apart c hc same
  besides := by simp [Framework.besides, adjectives, h.adjectives, touched, touched']

end Kept

section Successes
variable {F F' : Framework N} (distinct : (F.adjectives.map (·.name)).Nodup)

include distinct

theorem modify_ok {name : String} {f : Adjective N → Adjective N} (h : F.modify name f = .ok F') :
    ∃ before a after, F.Stands before a after ∧ a.name = name ∧
      F' = { F with adjectives := before ++ f a :: after } := by
  cases ha : F.adjective? name with
  | none =>
    rw [modify_eq, ha] at h
    cases h
  | some a =>
    obtain ⟨rfl, before, after, stands⟩ := exists_stands distinct ha
    rw [stands.modify] at h
    cases h
    exact ⟨before, a, after, stands, rfl, rfl⟩

theorem remove_ok {name : String} {a : Adjective N} (h : F.remove name = .ok (a, F')) :
    ∃ before after, F.Stands before a after ∧ a.name = name ∧ F' = { F with adjectives := before ++ after } := by
  cases ha : F.adjective? name with
  | none =>
    rw [remove_eq, ha] at h
    cases h
  | some b =>
    obtain ⟨rfl, before, after, stands⟩ := exists_stands distinct ha
    rw [stands.remove] at h
    cases h
    exact ⟨before, after, stands, rfl, rfl⟩

/-- What a successful renaming was given and what it makes. -/
structure Renames (F F' : Framework N) (name newName : String) (before : List (Adjective N)) (a : Adjective N)
    (after : List (Adjective N)) : Prop where
  stands : F.Stands before a after
  called : a.name = name
  named : newName ≠ ""
  apart : ∀ b ∈ before ++ after, b.name ≠ newName
  result : F' = { F with
    adjectives := before ++ { a with name := newName } :: after
    main := if F.main = some name then some newName else F.main }

theorem rename_ok {name newName : String} (h : F.rename name newName = .ok F') :
    ∃ before a after, Renames F F' name newName before a after := by
  rw [rename_eq] at h
  split at h
  · cases h
  · rename_i hempty
    split at h
    · cases h
    · rename_i hdup
      cases hmodified : F.modify name fun a => { a with name := newName } with
      | error e =>
        rw [hmodified] at h
        cases h
      | ok G =>
        obtain ⟨before, a, after, stands, named, rfl⟩ := modify_ok distinct hmodified
        rw [hmodified] at h
        cases h
        refine ⟨before, a, after, stands, named, hempty ∘ String.isEmpty_iff.mpr, fun b hb => ?_, rfl⟩
        by_cases hsame : name = newName
        · rw [← hsame, ← named]
          exact (List.mem_append.mp hb).elim (stands.before b) (stands.after b)
        · have fresh : F.adjective? newName = none := by simpa [hsame] using hdup
          refine adjective?_eq_none.mp fresh b ?_
          rw [stands.adjectives]
          exact List.mem_append.mpr ((List.mem_append.mp hb).imp_right (List.mem_cons_of_mem _))

end Successes

namespace Renames

variable {F F' : Framework N} {name newName : String} {before after : List (Adjective N)} {a : Adjective N}
  (h : Renames F F' name newName before a after)

include h

/-- The adjective stands where it did under its new name. -/
theorem stands' : F'.Stands before { a with name := newName } after := by
  rw [h.result]
  exact ⟨rfl, fun b hb => h.apart b (List.mem_append_left _ hb), fun b hb => h.apart b (List.mem_append_right _ hb)⟩

theorem kept : Kept [name, newName] F F' :=
  .replaced h.stands h.stands'.adjectives h.named h.apart (by simp [h.called]) (by simp)

/-- The old name is free, so a renaming can be taken back. -/
theorem rename_back (named : name ≠ "") : F'.rename newName name = .ok { F with
    main := if F'.main = some newName then some name else F'.main } := by
  have free : ¬(newName ≠ name ∧ (F'.adjective? name).isSome) := by
    rintro ⟨different, taken⟩
    obtain ⟨b, hb⟩ := Option.isSome_iff_exists.mp taken
    have hmem := adjective?_mem hb
    rw [h.stands'.adjectives] at hmem
    have called := adjective?_name hb
    rcases List.mem_append.mp hmem with hb' | hb'
    · exact h.stands.before b hb' (called.trans h.called.symm)
    · rcases List.mem_cons.mp hb' with rfl | hb''
      · exact different called
      · exact h.stands.after b hb'' (called.trans h.called.symm)
  have modified := h.stands'.modify fun a => { a with name := name }
  rw [rename_eq, if_neg (named ∘ String.isEmpty_iff.mp), if_neg free, modified]
  simp only [Except.map, h.result, ← h.called]
  rw [← h.stands.adjectives]

/-- What is lost in taking a renaming back is only that the main adjective had the new name before. -/
theorem back_eq : ({ F with main := if F'.main = some newName then some name else F'.main } : Framework N) = F ↔
    (F.main = some newName → name = newName) := by
  have main : (if F'.main = some newName then some name else F'.main) = F.main ↔
      (F.main = some newName → name = newName) := by
    rw [h.result]
    by_cases hold : F.main = some name
    · simp [hold]
    · simp only [hold, if_false]
      split <;> rename_i hnew <;> simp [hnew]
  rw [← main]
  exact ⟨congrArg Framework.main, fun same => by rw [same]⟩

end Renames

/-! ### Runs -/

section Runs
variable {F : Framework N}

theorem kept_left {names : List String} {r : Except FrameworkError (Framework N)}
    (kept : ∀ F', r = .ok F' → Kept names F F') : Kept names F (InPlace.left (InPlace.whole F (r.map ((), ·)))) := by
  match r with
  | .ok F' => exact kept F' rfl
  | .error _ => exact .refl _ _

theorem modify_kept (wellNamed : F.WellNamed) {F' : Framework N} {name : String} {f : Adjective N → Adjective N}
    (h : F.modify name f = .ok F') (same : ∀ a, (f a).name = a.name) : Kept [name] F F' := by
  obtain ⟨before, a, after, stands, rfl, rfl⟩ := modify_ok wellNamed.distinct h
  refine .replaced stands rfl ?_ ?_ (by simp) (by simp [same])
  · rw [same]
    exact wellNamed.named a stands.mem
  · rw [same]
    exact List.forall_mem_append.mpr ⟨stands.before, stands.after⟩

/-- One call, failing or not. -/
theorem leave_kept (wellNamed : F.WellNamed) (edit : Edit N) : Kept edit.names F (edit.leave F) := by
  rw [Edit.leave, call_eq wellNamed.distinct]
  cases edit with
  | add a => exact kept_left fun F' h => .add h
  | addAll adjectives =>
    have kept := Kept.addAll F adjectives
    rw [Edit.outcome]
    match h : F.addAll adjectives with
    | (F', none) => rwa [h] at kept
    | (F', some e) => rwa [h] at kept
  | remove name =>
    rw [Edit.outcome]
    match h : F.remove name with
    | .error e => exact .refl _ _
    | .ok (a, F') =>
      obtain ⟨before, after, stands, rfl, rfl⟩ := remove_ok wellNamed.distinct h
      exact .removed stands rfl (by simp [Edit.names])
  | rename name newName =>
    refine kept_left fun F' h => ?_
    obtain ⟨before, a, after, renames⟩ := rename_ok wellNamed.distinct h
    exact renames.kept
  | setGetter name getter => exact kept_left fun F' h => modify_kept wellNamed h fun _ => rfl
  | addTactic t => exact ⟨fun wellNamed => ⟨wellNamed.named, wellNamed.distinct⟩, rfl⟩
  | addAdjectiveTactic name t => exact kept_left fun F' h => modify_kept wellNamed h fun _ => rfl

theorem edited_kept (wellNamed : F.WellNamed) (edits : List (Edit N)) :
    Kept (edits.flatMap Edit.names) F (F.edited edits) := by
  induction edits generalizing F with
  | nil => exact .refl _ _
  | cons edit rest ih =>
    have first := leave_kept wellNamed edit
    have further := ih (first.wellNamed wellNamed)
    rw [List.flatMap_cons]
    exact (first.mono (List.subset_append_left _ _)).trans (further.mono (List.subset_append_right _ _))

end Runs

theorem run_addAll_cons {F G : Framework N} {a : Adjective N} (h : F.add a = .ok G) (rest : List (Adjective N)) :
    (Editing.addAll (a :: rest)).run F = (Editing.addAll rest).run G := by
  rw [Editing.addAll, EStateM.run_bind, run_add, h]
  rfl

theorem run_addAll_refused {F : Framework N} {a : Adjective N} {e : FrameworkError} (h : F.add a = .error e)
    (rest : List (Adjective N)) : (Editing.addAll (a :: rest)).run F = .error e F := by
  rw [Editing.addAll, EStateM.run_bind, run_add, h]
  rfl

theorem run_addAll_ok {F F' : Framework N} {adjectives : List (Adjective N)}
    (h : (Editing.addAll adjectives).run F = .ok () F') :
    F' = { F with adjectives := F.adjectives ++ adjectives } := by
  induction adjectives generalizing F with
  | nil =>
    cases h
    simp
  | cons a rest ih =>
    cases hadd : F.add a with
    | error e =>
      rw [run_addAll_refused hadd] at h
      cases h
    | ok G =>
      rw [run_addAll_cons hadd] at h
      obtain rfl := add_eq_ok hadd
      rw [ih h]
      simp

theorem run_addAll_error {F F' : Framework N} {adjectives : List (Adjective N)} {e : FrameworkError} :
    (Editing.addAll adjectives).run F = .error e F' ↔ ∃ before a after, adjectives = before ++ a :: after ∧
      (Editing.addAll before).run F = .ok () F' ∧ F'.add a = .error e := by
  -- The framework grows with every adjective that is accepted, so the induction is over all frameworks.
  induction adjectives generalizing F with
  | nil =>
    refine iff_of_false (fun h => by cases h) ?_
    rintro ⟨before, a, after, split, -⟩
    cases before <;> cases split
  | cons b rest ih =>
    cases hadd : F.add b with
    | error e' =>
      constructor
      · intro h
        rw [run_addAll_refused hadd] at h
        cases h
        exact ⟨[], b, rest, rfl, rfl, hadd⟩
      · rintro ⟨before, a, after, split, accepted, rejected⟩
        cases before with
        | nil =>
          cases split
          cases accepted
          rw [run_addAll_refused hadd, Except.error.inj (hadd.symm.trans rejected)]
        | cons c before =>
          cases split
          rw [run_addAll_refused hadd] at accepted
          cases accepted
    | ok G =>
      rw [run_addAll_cons hadd, ih]
      constructor
      · rintro ⟨before, a, after, rfl, accepted, rejected⟩
        exact ⟨b :: before, a, after, rfl, (run_addAll_cons hadd before).trans accepted, rejected⟩
      · rintro ⟨before, a, after, split, accepted, rejected⟩
        cases before with
        | nil =>
          cases split
          cases accepted
          rw [hadd] at rejected
          cases rejected
        | cons c before =>
          cases split
          exact ⟨before, a, after, rfl, (run_addAll_cons hadd before).symm.trans accepted, rejected⟩

/-- A framework whose calls do what they say, whatever calls come next. -/
structure Orderly (F : Framework N) : Prop where
  wellNamed : F.WellNamed
  outcome : ∀ edit : Edit N, edit.call.run F = edit.outcome F
  /-- A failing call changes nothing, unless it adds several adjectives. -/
  refused : ∀ (edit : Edit N) e F', edit.call.run F = .error e F' → (∀ adjectives, edit ≠ .addAll adjectives) → F' = F
  /-- What is added together is added up to the first adjective that is refused. -/
  added : ∀ adjectives e F', (Editing.addAll adjectives).run F = .error e F' ↔ ∃ before a after,
    adjectives = before ++ a :: after ∧ (Editing.addAll before).run F = .ok () F' ∧ F'.add a = .error e ∧
      F' = { F with adjectives := F.adjectives ++ before }
  /-- What no call is about keeps its place among the others. -/
  untouched : ∀ edits, (F.edited edits).besides (edits.flatMap Edit.names) = F.besides (edits.flatMap Edit.names)
  /-- A renamed adjective keeps its place and its definition, and the main adjective goes along. -/
  renamed : ∀ name newName F', (Editing.rename name newName).run F = .ok () F' → ∃ before a after,
    F.adjectives = before ++ a :: after ∧ a.name = name ∧ F' = { F with
      adjectives := before ++ { a with name := newName } :: after
      main := if F.main = some name then some newName else F.main }
  /-- Renaming back succeeds, and it restores the framework unless the main adjective had the new name before. -/
  renamedBack : ∀ name newName F', (Editing.rename name newName).run F = .ok () F' → ∃ F'',
    (Editing.rename newName name).run F' = .ok () F'' ∧ (F'' = F ↔ (F.main = some newName → name = newName))

theorem WellNamed.orderly {F : Framework N} (wellNamed : F.WellNamed) : F.Orderly where
  wellNamed := wellNamed
  outcome := call_eq wellNamed.distinct
  refused edit e F' failed single := by
    rw [call_eq wellNamed.distinct] at failed
    cases edit with
    | addAll adjectives => exact absurd rfl (single adjectives)
    | addTactic t => cases failed
    | _ => exact InPlace.whole_eq_error failed
  added adjectives e F' := by
    rw [run_addAll_error]
    constructor
    · rintro ⟨before, a, after, split, accepted, rejected⟩
      exact ⟨before, a, after, split, accepted, rejected, run_addAll_ok accepted⟩
    · rintro ⟨before, a, after, split, accepted, rejected, -⟩
      exact ⟨before, a, after, split, accepted, rejected⟩
  untouched edits := (edited_kept wellNamed edits).besides
  renamed name newName F' h := by
    rw [rename_whole wellNamed.distinct] at h
    obtain ⟨before, a, after, renames⟩ := rename_ok wellNamed.distinct (InPlace.whole_map_eq_ok h)
    exact ⟨before, a, after, renames.stands.adjectives, renames.called, renames.result⟩
  renamedBack name newName F' h := by
    rw [rename_whole wellNamed.distinct] at h
    obtain ⟨before, a, after, renames⟩ := rename_ok wellNamed.distinct (InPlace.whole_map_eq_ok h)
    have wellNamed' := renames.kept.wellNamed wellNamed
    -- The old name is not empty and now free, which is what renaming back needs.
    have named : name ≠ "" := renames.called ▸ wellNamed.named a renames.stands.mem
    refine ⟨{ F with main := if F'.main = some newName then some name else F'.main }, ?_, renames.back_eq⟩
    rw [rename_whole wellNamed'.distinct, renames.rename_back named]
    rfl

/-- Calls from a framework without adjectives on, in any order and failing ones included, leave an orderly framework. -/
theorem edited_orderly (F : Framework N) (edits : List (Edit N)) :
    Orderly (({ F with adjectives := [] } : Framework N).edited edits) := by
  have wellNamed : ({ F with adjectives := [] } : Framework N).WellNamed := ⟨nofun, List.nodup_nil⟩
  exact ((edited_kept wellNamed edits).wellNamed wellNamed).orderly

end Framework

end Rationale
