import Mathlib.Data.List.Nodup
import Rationale.Proofs.Layout
import Rationale.Proofs.Results
import Rationale.Settings

/-!
Reading back. A value in memory has the fields of a record sorted by their names, so they come back in another order than
that in which they were written, and a number that is not finite has become `null`. Every field is read to what it was
written for, whichever come before it, and a field that was not written is not set. So settings, patches of settings and
descriptions of trees come back as they were.
-/

namespace Rationale

namespace Json

/-- The fields one after the other put where their names sort them. -/
def sortFields (fields : List (String × Json)) : List (String × Json) :=
  fields.foldl (fun sorted field => insertField field.1 field.2 sorted) []

mutual

/-- What a value is in memory: the fields of a record are sorted, and `null` stands for a number that is not finite. -/
def kept : Json → Json
  | .float x => if x.isFinite then .float x else .null
  | .list items => .list (keptItems items)
  | .record fields => .record (sortFields (keptFields fields))
  | other => other

def keptItems : List Json → List Json
  | [] => []
  | item :: rest => item.kept :: keptItems rest

def keptFields : List (String × Json) → List (String × Json)
  | [] => []
  | (name, value) :: rest => (name, value.kept) :: keptFields rest

end

theorem keptFields_eq (fields : List (String × Json)) : keptFields fields = fields.map fun f => (f.1, f.2.kept) := by
  induction fields with
  | nil => rfl
  | cons f rest ih => rw [keptFields, ih, List.map_cons]

theorem keptItems_eq (items : List Json) : keptItems items = items.map kept := by
  induction items with
  | nil => rfl
  | cons item rest ih => rw [keptItems, ih, List.map_cons]

theorem insertField_perm {name : String} {fields : List (String × Json)} (new : name ∉ fields.map (·.1)) (value : Json) :
    (insertField name value fields).Perm ((name, value) :: fields) := by
  induction fields with
  | nil => exact .refl _
  | cons field rest ih =>
    obtain ⟨other, old⟩ := field
    obtain ⟨different, later⟩ := not_or.mp (List.mem_cons.not.mp new)
    rw [insertField, if_neg different]
    split
    · exact .refl _
    · exact ((ih later).cons _).trans (.swap _ _ _)

theorem sortFields_perm {fields : List (String × Json)} (distinct : (fields.map (·.1)).Nodup) :
    (sortFields fields).Perm fields := by
  have onto {sorted : List (String × Json)} (apart : ((sorted ++ fields).map (·.1)).Nodup) :
      (fields.foldl (fun sorted field => insertField field.1 field.2 sorted) sorted).Perm (sorted ++ fields) := by
    clear distinct
    induction fields generalizing sorted with
    | nil => exact .of_eq (List.append_nil sorted).symm
    | cons field rest ih =>
      rw [List.map_append, List.map_cons, List.nodup_middle, List.nodup_cons, ← List.map_append] at apart
      have inserted := insertField_perm (fun h => apart.1 (by simp [h]) : field.1 ∉ sorted.map (·.1)) field.2
      have same : (insertField field.1 field.2 sorted ++ rest).Perm (sorted ++ field :: rest) :=
        (inserted.append_right rest).trans List.perm_middle.symm
      rw [List.foldl_cons]
      refine (ih ?_).trans same
      rw [(same.map (·.1)).nodup_iff, List.map_append, List.map_cons, List.nodup_middle, List.nodup_cons,
        ← List.map_append]
      exact apart
  exact onto (by rwa [List.nil_append])

/-- The fields of a record in memory are those that were written, if none of them was written twice. -/
theorem kept_record {fields : List (String × Json)} (distinct : (fields.map (·.1)).Nodup) : ∃ sorted,
    (record fields).kept = .record sorted ∧ sorted.Perm (fields.map fun f => (f.1, f.2.kept)) := by
  refine ⟨_, rfl, ?_⟩
  rw [keptFields_eq]
  refine sortFields_perm ?_
  rwa [List.map_map]

section Fields
variable {σ : Type} (set : String → Json → σ → Except DecodeError σ) (right : String → σ → Prop)
  (leaves : ∀ {name value s s' other}, set name value s = .ok s' → other ≠ name → right other s → right other s')
include leaves

/-- Fields that are read one after the other are all right in the end if each of them is right when it is read, since
the others leave it. -/
theorem foldlM_fields {fields : List (String × Json)}
    (reads : ∀ f ∈ fields, ∀ s, ∃ s', set f.1 f.2 s = .ok s' ∧ right f.1 s') (s : σ) :
    ∃ s', fields.foldlM (fun s (name, value) => set name value s) s = .ok s' ∧
      ∀ name, name ∈ fields.map (·.1) ∨ right name s → right name s' := by
  induction fields generalizing s with
  | nil => exact ⟨s, rfl, fun name h => h.resolve_left List.not_mem_nil⟩
  | cons f rest ih =>
    obtain ⟨first, later⟩ := List.forall_mem_cons.mp reads
    obtain ⟨middle, read, here⟩ := first s
    obtain ⟨s', reads, right'⟩ := ih later middle
    refine ⟨s', bind_eq_ok.mpr ⟨middle, read, reads⟩, fun name h => right' name ?_⟩
    by_cases same : name = f.1
    · exact .inr (same ▸ here)
    · rcases h with mem | old
      · exact .inl ((List.mem_cons.mp mem).resolve_left same)
      · exact .inr (leaves read same old)

/-- So they are when they come from memory, where they are sorted. -/
theorem foldlM_kept {fields : List (String × Json)} (distinct : (fields.map (·.1)).Nodup)
    (reads : ∀ f ∈ fields, (∀ s, ∃ s', set f.1 f.2 s = .ok s' ∧ right f.1 s') ∧ f.2.kept = f.2) (s : σ) :
    ∃ sorted s', (record fields).kept = .record sorted ∧
      sorted.foldlM (fun s (name, value) => set name value s) s = .ok s' ∧
      ∀ name, name ∈ fields.map (·.1) ∨ right name s → right name s' := by
  obtain ⟨sorted, kept, perm⟩ := kept_record distinct
  have unchanged : (fields.map fun f => (f.1, f.2.kept)) = fields :=
    (List.map_congr_left fun f hf => by rw [(reads f hf).2, id]).trans (List.map_id _)
  rw [unchanged] at perm
  obtain ⟨s', read, right'⟩ := foldlM_fields set right leaves (fun f hf => (reads f (perm.mem_iff.mp hf)).1) s
  exact ⟨sorted, s', kept, read, fun name h => right' name (h.imp_left (perm.map (·.1)).mem_iff.mpr)⟩

/-- A field that is not among those that are read stays as it is. -/
theorem foldlM_absent {fields : List (String × Json)} {s s' : σ} {name : String} (absent : name ∉ fields.map (·.1))
    (h : fields.foldlM (fun s (name, value) => set name value s) s = .ok s') (old : right name s) : right name s' := by
  induction fields generalizing s with
  | nil =>
    cases h
    exact old
  | cons field rest ih =>
    obtain ⟨different, later⟩ := not_or.mp (List.mem_cons.not.mp absent)
    obtain ⟨middle, read, h⟩ := bind_eq_ok.mp h
    have read : set field.1 field.2 s = .ok middle := read
    exact ih later h (leaves read different old)

end Fields

end Json

namespace Json

theorem orNull_eq_ok {α : Type} {read : Json → Except DecodeError α} {j : Json} {x : α} (h : read j = .ok x)
    (there : j ≠ .null) : j.orNull read = .ok (some x) := by
  rw [orNull, h]
  · rfl
  · exact there

theorem asNatural32_natural {n : Nat} (range : n < UInt32.size) : (integer n).asNatural32 = .ok n := by
  have inside : 0 ≤ (n : Int) ∧ (n : Int) < UInt32.size := ⟨Int.natCast_nonneg n, Int.ofNat_lt.mpr range⟩
  unfold asNatural32
  simp only [inside, and_self, if_true, Int.toNat_natCast]

end Json

theorem Verbosity.asCase_name (v : Verbosity) : (Json.text v.name).asCase Verbosity.named = .ok v := by
  cases v <;> rfl

theorem PrintMode.asCase_name (m : PrintMode) : (Json.text m.name).asCase PrintMode.named = .ok m := by
  cases m <;> rfl

/-! ### Patches and settings -/

namespace SettingsPatch

/-- Whether the patch sets the named field. -/
def sets (p : SettingsPatch) (name : String) : Bool :=
  match name with
  | "explanation_depth" => p.explanationDepth.isSome
  | "print_implicit_assumptions" => p.printImplicitAssumptions.isSome
  | "assumptions_verbosity" => p.verbosity.isSome
  | "print_mode" => p.printMode.isSome
  | "with_framework" => p.framework.isSome
  | "print_depth" => p.printDepth.isSome
  | _ => false

/-- The named field of `q` is that of `p`. -/
def Agrees (p : SettingsPatch) (name : String) (q : SettingsPatch) : Prop :=
  match name with
  | "explanation_depth" => q.explanationDepth = p.explanationDepth
  | "print_implicit_assumptions" => q.printImplicitAssumptions = p.printImplicitAssumptions
  | "assumptions_verbosity" => q.verbosity = p.verbosity
  | "print_mode" => q.printMode = p.printMode
  | "with_framework" => q.framework = p.framework
  | "print_depth" => q.printDepth = p.printDepth
  | _ => True

theorem eq_of_agrees {p q : SettingsPatch} (h : ∀ name ∈ Settings.fieldNames, p.Agrees name q) : q = p := by
  obtain ⟨depth, implicit, verbosity, mode, framework, marks⟩ := q
  simp only [Settings.fieldNames, List.forall_mem_cons, Agrees] at h
  obtain ⟨rfl, rfl, rfl, rfl, rfl, rfl, -⟩ := h
  rfl

theorem agrees_refl (p : SettingsPatch) (name : String) : p.Agrees name p := by
  unfold Agrees
  split <;> trivial

theorem agrees_unset {p : SettingsPatch} {name : String} (h : p.sets name = false) : p.Agrees name {} := by
  unfold sets at h
  unfold Agrees
  split
  all_goals first | exact (Option.isNone_iff_eq_none.mp (by simpa using h)).symm | trivial

/-- A field stays as it is when another one is read. -/
theorem agrees_setField {p q q' : SettingsPatch} {name other : String} {value : Json}
    (h : setField name value q = .ok q') (different : other ≠ name) (old : p.Agrees other q) : p.Agrees other q' := by
  unfold setField at h
  split at h
  case h_7 => cases h
  all_goals
    obtain ⟨x, -, ⟨⟩⟩ := bind_eq_ok.mp h
    unfold Agrees
    split <;> first | exact old | exact absurd rfl different | trivial

/-- The fields that are written. -/
def fields (p : SettingsPatch) : List (String × Json) :=
  List.flatten [
    (p.explanationDepth.map fun (n : Nat) => ("explanation_depth", Json.integer n)).toList,
    (p.printImplicitAssumptions.map fun b => ("print_implicit_assumptions", Json.bool b)).toList,
    (p.verbosity.map fun v => ("assumptions_verbosity", Json.text v.name)).toList,
    (p.printMode.map fun m => ("print_mode", Json.text m.name)).toList,
    (p.framework.map fun key => ("with_framework", Json.text key)).toList,
    (p.printDepth.map fun b => ("print_depth", Json.bool b)).toList]

theorem toJson_eq (p : SettingsPatch) : p.toJson = .record p.fields := by
  rw [toJson, fields]
  cases p.explanationDepth <;> rfl

/-- Just the fields that are set are written, in the order of all fields. -/
theorem names_fields (p : SettingsPatch) : p.fields.map (·.1) = Settings.fieldNames.filter p.sets := by
  have field {α : Type} (o : Option α) (name : String) (f : α → Json) :
      ((o.map fun x => (name, f x)).toList.map (·.1)) = if o.isSome then [name] else [] := by
    cases o <;> rfl
  have filter (name : String) (rest : List String) :
      (name :: rest).filter p.sets = (if p.sets name then [name] else []) ++ rest.filter p.sets := by
    rw [List.filter_cons]
    split <;> rfl
  rw [fields, List.map_flatten]
  simp only [List.map_cons, List.map_nil, field, Settings.fieldNames, filter, List.flatten_cons]
  rfl

/-- Every field that is written is read to what the patch has, and is kept as it is written. -/
theorem mem_fields {p : SettingsPatch} (range : ∀ n, p.explanationDepth = some n → n < UInt32.size)
    {name : String} {value : Json} (h : (name, value) ∈ p.fields) :
    (∀ q, ∃ q', setField name value q = .ok q' ∧ p.Agrees name q') ∧ value.kept = value := by
  simp only [fields, List.flatten_cons, List.flatten_nil, List.append_nil, List.mem_append, Option.mem_toList,
    Option.map_eq_some_iff, Prod.mk.injEq] at h
  rcases h with ⟨n, hn, rfl, rfl⟩ | ⟨b, hb, rfl, rfl⟩ | ⟨v, hv, rfl, rfl⟩ | ⟨m, hm, rfl, rfl⟩ | ⟨key, hkey, rfl, rfl⟩ |
    ⟨b, hb, rfl, rfl⟩
  · have read := Json.orNull_eq_ok (Json.asNatural32_natural (range n hn)) nofun
    exact ⟨fun q => ⟨{ q with explanationDepth := some n }, by rw [setField, read]; rfl, hn.symm⟩, rfl⟩
  · exact ⟨fun q => ⟨_, rfl, hb.symm⟩, rfl⟩
  · have read := Json.orNull_eq_ok v.asCase_name nofun
    exact ⟨fun q => ⟨{ q with verbosity := some v }, by rw [setField, read]; rfl, hv.symm⟩, rfl⟩
  · have read := Json.orNull_eq_ok m.asCase_name nofun
    exact ⟨fun q => ⟨{ q with printMode := some m }, by rw [setField, read]; rfl, hm.symm⟩, rfl⟩
  · exact ⟨fun q => ⟨_, rfl, hkey.symm⟩, rfl⟩
  · exact ⟨fun q => ⟨_, rfl, hb.symm⟩, rfl⟩

theorem ofJson_kept {p : SettingsPatch} (range : ∀ n, p.explanationDepth = some n → n < UInt32.size) :
    ofJson p.toJson.kept = .ok p := by
  have distinct : (p.fields.map (·.1)).Nodup := by
    rw [names_fields]
    exact (by decide : Settings.fieldNames.Nodup).filter _
  obtain ⟨sorted, q, kept, read, agrees⟩ := Json.foldlM_kept setField p.Agrees agrees_setField distinct
    (fun f hf => mem_fields range hf) {}
  have same : q = p := eq_of_agrees fun name known => agrees name <| by
    rw [names_fields, List.mem_filter]
    cases h : p.sets name with
    | true => exact .inl ⟨known, rfl⟩
    | false => exact .inr (agrees_unset h)
  rw [toJson_eq, kept, ← same]
  exact read

/-- A field that is not given is not set. -/
theorem sets_ofJson {fields : List (String × Json)} {p : SettingsPatch} (h : ofJson (.record fields) = .ok p)
    {name : String} (absent : name ∉ fields.map (·.1)) : p.sets name = false := by
  have unset : Agrees {} name p := Json.foldlM_absent setField (Agrees {}) agrees_setField absent h (agrees_refl _ _)
  unfold Agrees at unset
  unfold sets
  split <;> first | rfl | exact congrArg Option.isSome unset

end SettingsPatch

namespace Settings

/-- The settings as a patch that sets all of them. -/
def full (s : Settings) : SettingsPatch where
  explanationDepth := some s.explanationDepth
  printImplicitAssumptions := some s.printImplicitAssumptions
  verbosity := some s.verbosity
  printMode := some s.printMode
  framework := s.framework
  printDepth := some s.printDepth

theorem full_inj {s s' : Settings} (h : s.full = s'.full) : s = s' := by
  cases s
  cases s'
  cases h
  rfl

/-- What settings take from a field a patch takes from it, too. -/
theorem full_setField {name : String} {value : Json} {q q' : Settings} (h : setField name value q = .ok q') :
    SettingsPatch.setField name value q.full = .ok q'.full := by
  unfold setField at h
  split at h
  case h_7 => cases h
  all_goals
    obtain ⟨x, read, ⟨⟩⟩ := bind_eq_ok.mp h
    first
    | simp only [SettingsPatch.setField, Json.orNull_eq_ok read (by rintro rfl; cases read)]; rfl
    | simp only [SettingsPatch.setField, read]; rfl

/-- The fields that are written. -/
def fields (s : Settings) : List (String × Json) := [
  ("explanation_depth", .integer s.explanationDepth),
  ("print_implicit_assumptions", .bool s.printImplicitAssumptions),
  ("assumptions_verbosity", .text s.verbosity.name),
  ("print_mode", .text s.printMode.name),
  ("with_framework", (s.framework.map Json.text).getD .null),
  ("print_depth", .bool s.printDepth)]

theorem toJson_eq (s : Settings) : s.toJson = .record s.fields := by
  rw [toJson, fields]
  cases s.framework <;> rfl

theorem mem_fields {s : Settings} (range : s.explanationDepth < UInt32.size) {name : String} {value : Json}
    (h : (name, value) ∈ s.fields) :
    (∀ q, ∃ q', setField name value q = .ok q' ∧ s.full.Agrees name q'.full) ∧ value.kept = value := by
  simp only [fields, List.mem_cons, List.not_mem_nil, or_false, Prod.mk.injEq] at h
  rcases h with ⟨rfl, rfl⟩ | ⟨rfl, rfl⟩ | ⟨rfl, rfl⟩ | ⟨rfl, rfl⟩ | ⟨rfl, rfl⟩ | ⟨rfl, rfl⟩
  · have read := Json.asNatural32_natural range
    exact ⟨fun q => ⟨{ q with explanationDepth := s.explanationDepth }, by rw [setField, read]; rfl, rfl⟩, rfl⟩
  · exact ⟨fun q => ⟨_, rfl, rfl⟩, rfl⟩
  · have read := s.verbosity.asCase_name
    exact ⟨fun q => ⟨{ q with verbosity := s.verbosity }, by rw [setField, read]; rfl, rfl⟩, rfl⟩
  · have read := s.printMode.asCase_name
    exact ⟨fun q => ⟨{ q with printMode := s.printMode }, by rw [setField, read]; rfl, rfl⟩, rfl⟩
  · cases hkey : s.framework with
    | none => exact ⟨fun q => ⟨_, rfl, hkey.symm⟩, rfl⟩
    | some key => exact ⟨fun q => ⟨_, rfl, hkey.symm⟩, rfl⟩
  · exact ⟨fun q => ⟨_, rfl, rfl⟩, rfl⟩

theorem ofJson_kept {s : Settings} (range : s.explanationDepth < UInt32.size) : ofJson s.toJson.kept = .ok s := by
  have distinct : (s.fields.map (·.1)).Nodup := (by decide : fieldNames.Nodup)
  obtain ⟨sorted, q, kept, read, agrees⟩ := Json.foldlM_kept setField (fun name q => s.full.Agrees name q.full)
    (fun h => SettingsPatch.agrees_setField (full_setField h)) distinct (fun f hf => mem_fields range hf) {}
  have same : q = s := full_inj (SettingsPatch.eq_of_agrees fun name known => agrees name (.inl known))
  rw [toJson_eq, kept, ← same]
  exact read

end Settings

/-! ### Descriptions of trees -/

namespace TreeSpec

/-- The fields that are written. -/
def fields (s : TreeSpec) : List (String × Json) :=
  ("label", .text s.label) :: ((s.evaluation.map fun x => ("evaluation", Json.float x)).toList
    ++ if s.children.isEmpty then [] else [("children", .list (toJsonOfAll s.children))])

theorem toJson_eq (s : TreeSpec) : s.toJson = .record s.fields := by
  obtain ⟨label, evaluation, children⟩ := s
  rw [toJson, fields]

/-- Evaluations and children are written where there are any. -/
theorem names_fields (s : TreeSpec) : s.fields.map (·.1) = "label" ::
    ((if s.evaluation = none then [] else ["evaluation"]) ++ if s.children = [] then [] else ["children"]) := by
  obtain ⟨label, evaluation, children⟩ := s
  cases evaluation <;> cases children <;> rfl

theorem nodup_fields (s : TreeSpec) : (s.fields.map (·.1)).Nodup := by
  rw [names_fields]
  split <;> split <;> decide

theorem toJsonOfAll_eq (specs : List TreeSpec) : toJsonOfAll specs = specs.map toJson := by
  induction specs with
  | nil => rfl
  | cons s rest ih => rw [toJsonOfAll, ih, List.map_cons]

/-- The named field of the draft is that of the description. -/
def Agrees (s : TreeSpec) (name : String) (d : Draft) : Prop :=
  match name with
  | "label" => d.label = some s.label
  | "evaluation" => d.evaluation = s.evaluation
  | "children" => d.children = s.children
  | _ => True

/-- A field stays as it is when another one is read. -/
theorem agrees_readField {s : TreeSpec} {name other : String} {value : Json} {d d' : Draft}
    (h : readField name value d = .ok d') (different : other ≠ name) (old : s.Agrees other d) : s.Agrees other d' := by
  unfold readField at h
  split at h
  case h_3 =>
    split at h
    · obtain ⟨x, -, ⟨⟩⟩ := bind_eq_ok.mp h
      unfold Agrees
      split <;> first | exact old | exact absurd rfl different | trivial
    · cases h
  -- A field that is not known is passed over.
  case h_4 =>
    cases h
    exact old
  all_goals
    obtain ⟨x, -, ⟨⟩⟩ := bind_eq_ok.mp h
    unfold Agrees
    split <;> first | exact old | exact absurd rfl different | trivial

theorem readFields_eq (d : Draft) (fields : List (String × Json)) :
    readFields d fields = fields.foldlM (fun d (name, value) => readField name value d) d := by
  induction fields generalizing d with
  | nil => rw [readFields]; rfl
  | cons f rest ih =>
    rw [readFields, List.foldlM_cons]
    exact bind_congr fun d' => ih d'

/-- A field that is read to what the description has. -/
inductive Tells (s : TreeSpec) : String × Json → Prop
  | label : Tells s ("label", .text s.label)
  | evaluation {x : Number} (h : s.evaluation = some x) : Tells s ("evaluation", .float x)
  | children {items : List Json} (h : readAll items = .ok s.children) : Tells s ("children", .list items)

theorem readField_tells {s : TreeSpec} {f : String × Json} (tells : s.Tells f) (d : Draft) :
    ∃ d', readField f.1 f.2 d = .ok d' ∧ s.Agrees f.1 d' := by
  cases tells with
  | label => exact ⟨{ d with label := some s.label }, by rw [readField]; rfl, rfl⟩
  | @evaluation x h => exact ⟨{ d with evaluation := some x }, by rw [readField]; rfl, h.symm⟩
  | children h => exact ⟨{ d with children := s.children }, by rw [readField]; simp only [h]; rfl, rfl⟩

theorem readAll_map {f : TreeSpec → Json} {specs : List TreeSpec} (reads : ∀ s ∈ specs, ofJson (f s) = .ok s) :
    readAll (specs.map f) = .ok specs := by
  induction specs with
  | nil => rw [List.map_nil, readAll]
  | cons s rest ih =>
    obtain ⟨first, later⟩ := List.forall_mem_cons.mp reads
    rw [List.map_cons, readAll, first, ih later]
    rfl

theorem ofJson_of_tells {s : TreeSpec} {fields : List (String × Json)} (tells : ∀ f ∈ fields, s.Tells f)
    (names : (fields.map (·.1)).Perm (s.fields.map (·.1))) : ofJson (.record fields) = .ok s := by
  obtain ⟨d, read, agrees⟩ := Json.foldlM_fields readField s.Agrees agrees_readField
    (fun f hf => readField_tells (tells f hf)) {}
  have label : d.label = some s.label := agrees "label" (.inl (names.mem_iff.mpr (by simp [names_fields])))
  have evaluation : d.evaluation = s.evaluation := agrees "evaluation" <| by
    cases h : s.evaluation with
    | none => exact .inr h.symm
    | some x => exact .inl (names.mem_iff.mpr (by simp [names_fields, h]))
  have children : d.children = s.children := agrees "children" <| by
    cases h : s.children with
    | nil => exact .inr h.symm
    | cons c rest => exact .inl (names.mem_iff.mpr (by simp [names_fields, h]))
  rw [ofJson, readFields_eq, read]
  dsimp only [bind, Except.bind]
  rw [Draft.finish, label, evaluation, children]
  cases s
  rfl

theorem fields_tells {s : TreeSpec} (finite : ∀ x, s.evaluation = some x → x.isFinite)
    (below : ∀ c ∈ s.children, ofJson c.toJson.kept = .ok c) : ∀ f ∈ s.fields, s.Tells (f.1, f.2.kept) := by
  intro f hf
  simp only [fields, List.mem_cons, List.mem_append, Option.mem_toList, Option.map_eq_some_iff] at hf
  rcases hf with rfl | ⟨x, hx, rfl⟩ | hf
  · exact .label
  · have kept : (Json.float x).kept = .float x := by rw [Json.kept, if_pos (finite x hx)]
    rw [kept]
    exact .evaluation hx
  · split at hf
    · cases hf
    · obtain rfl := List.mem_singleton.mp hf
      rw [Json.kept, Json.keptItems_eq, toJsonOfAll_eq, List.map_map]
      exact .children (readAll_map below)

theorem ofJson_kept {s : TreeSpec} (finite : ∀ node ∈ s.preorder, ∀ x, node.evaluation = some x → x.isFinite) :
    ofJson s.toJson.kept = .ok s := by
  induction s with
  | node label evaluation children ih =>
    rw [preorder, preorderOfAll_eq] at finite
    obtain ⟨here, below⟩ := List.forall_mem_cons.mp finite
    have children_read (c : TreeSpec) (hc : c ∈ children) : ofJson c.toJson.kept = .ok c :=
      ih c hc fun node hnode => below node (List.mem_flatMap.mpr ⟨c, hc, hnode⟩)
    obtain ⟨sorted, kept, perm⟩ := Json.kept_record (nodup_fields ⟨label, evaluation, children⟩)
    rw [toJson_eq, kept]
    refine ofJson_of_tells (fun f hf => ?_) ?_
    · obtain ⟨f', hf', rfl⟩ := List.mem_map.mp (perm.mem_iff.mp hf)
      exact fields_tells here children_read f' hf'
    · refine (perm.map (·.1)).trans (.of_eq ?_)
      rw [List.map_map]
      rfl

end TreeSpec

end Rationale
