import Rationale.Explainer
import Rationale.Proofs.Edits

/-!
Registrations. An explainer is set up by calls that change it where it is, and the one that sets a getter goes through the
frameworks one after the other. Every call does what the operation of its name gives, all of it or nothing. The frameworks
stay under distinct keys and valid, getters having no part in what makes them so, and a configured framework stays
registered; so a framework can be chosen whenever one is registered and no other one is asked for.
-/

namespace Rationale

variable {N : Type}

/-- A call that changes an explainer where it is. -/
abbrev Registering (N : Type) := EStateM ExplainError (Explainer N)

namespace Registering

def addFramework (key : String) (F : Framework N) : Registering N Unit := do
  if ((← get).framework? key).isSome then throw (.duplicateFramework key)
  match F.validate with
  | .error e => throw (.framework e)
  | .ok () => modify fun E => { E with frameworks := E.frameworks ++ [(key, F)] }

def configure (patch : SettingsPatch) : Registering N Unit := do
  match patch.framework with
  | some key => if ((← get).framework? key).isNone then throw (.unknownFramework key)
  | none => pure ()
  modify fun E => { E with settings := E.settings.merge patch }

def configureJson (value : Json) : Registering N Unit :=
  match SettingsPatch.ofJson value with
  | .error e => throw (.settings e)
  | .ok patch => configure patch

/-- Goes through the frameworks that come after those in `visited`, and tells whether the getter is set in one of all. -/
def setGetterFrom (name : String) (getter : Getter N) (found : Bool) (visited : List (String × Framework N)) :
    List (String × Framework N) → Registering N Bool
  | [] => return found
  | (key, F) :: rest =>
    if (F.adjective? name).isSome then
      match F.setGetter name getter with
      | .error e => throw (.framework e)
      | .ok F' => do
        modify fun E => { E with frameworks := visited ++ (key, F') :: rest }
        setGetterFrom name getter true (visited ++ [(key, F')]) rest
    else setGetterFrom name getter found (visited ++ [(key, F)]) rest

def setGetter (name : String) (getter : Getter N) : Registering N Unit := do
  let found ← setGetterFrom name getter false [] (← get).frameworks
  if !found then throw (.noSuchGetterTarget name)

end Registering

/-- A call on an explainer, with what it is given. -/
inductive Registration (N : Type)
  | addFramework (key : String) (F : Framework N)
  | configure (patch : SettingsPatch)
  | configureJson (value : Json)
  | setGetter (name : String) (getter : Getter N)

namespace Registration

def call : Registration N → Registering N Unit
  | .addFramework key F => Registering.addFramework key F
  | .configure patch => Registering.configure patch
  | .configureJson value => Registering.configureJson value
  | .setGetter name getter => Registering.setGetter name getter

/-- What the operation of the same name gives. -/
def operation (E : Explainer N) : Registration N → Except ExplainError (Explainer N)
  | .addFramework key F => E.addFramework key F
  | .configure patch => E.configure patch
  | .configureJson value => E.configureJson value
  | .setGetter name getter => E.setGetter name getter

def leave (E : Explainer N) (registration : Registration N) : Explainer N :=
  InPlace.left (registration.call.run E)

end Registration

/-- The explainer after calls, failing ones included. -/
def Explainer.registered (E : Explainer N) (registrations : List (Registration N)) : Explainer N :=
  registrations.foldl Registration.leave E

namespace Framework

/-- The framework with a getter for the adjective with a name, if it has one. -/
def withGetter (F : Framework N) (name : String) (getter : Getter N) : Framework N :=
  { F with adjectives := F.adjectives.map fun a => if a.name == name then { a with getter := some getter } else a }

section Alike
variable {F : Framework N} {f : Adjective N → Adjective N} (named : ∀ a, (f a).name = a.name)

include named

theorem adjective?_map (name : String) :
    ({ F with adjectives := F.adjectives.map f } : Framework N).adjective? name = (F.adjective? name).map f := by
  rw [adjective?, adjective?, List.find?_map]
  simp only [Function.comp_def, named]

theorem discard_adjective_map (name : String) :
    discard (({ F with adjectives := F.adjectives.map f } : Framework N).adjective name)
      = discard (F.adjective name) := by
  rw [adjective, adjective, adjective?_map named]
  cases F.adjective? name <;> rfl

/-- Nothing but the names, kinds, references and tactics of its adjectives makes a framework valid. -/
theorem validate_map (kind : ∀ a, (f a).kind = a.kind) (references : ∀ a, (f a).references = a.references)
    (tactics : ∀ a, (f a).tactics = a.tactics) :
    ({ F with adjectives := F.adjectives.map f } : Framework N).validate = F.validate := by
  have reference (owner : String) :
      ({ F with adjectives := F.adjectives.map f } : Framework N).checkReference owner = F.checkReference owner := by
    funext r
    rw [checkReference, checkReference, adjective?_map named]
    cases F.adjective? r.1 with
    | none => rfl
    | some target => simp only [Option.map_some, kind]
  have checked (ts : List Tactic) :
      ({ F with adjectives := F.adjectives.map f } : Framework N).checkTactics ts = F.checkTactics ts := by
    simp only [checkTactics, discard_adjective_map named]
  have adjective (a : Adjective N) :
      ({ F with adjectives := F.adjectives.map f } : Framework N).checkAdjective (f a) = F.checkAdjective a := by
    rw [checkAdjective, checkAdjective, references, named, reference, tactics, checked]
  simp only [validate, discard_adjective_map named, checked, List.forM_eq_forM, List.forM_map, adjective]

end Alike

section Getters
variable (F : Framework N) (name : String) (getter : Getter N)

theorem validate_withGetter : (F.withGetter name getter).validate = F.validate := by
  have same {α : Type} (g : Adjective N → α) (hg : ∀ a, g { a with getter := some getter } = g a) (a : Adjective N) :
      g (if a.name == name then { a with getter := some getter } else a) = g a := by
    split
    · exact hg a
    · rfl
  exact validate_map (same _ fun _ => rfl) (same _ fun _ => rfl) (same _ fun _ => rfl) (same _ fun _ => rfl)

theorem withGetter_of_none (h : F.adjective? name = none) : F.withGetter name getter = F := by
  have other (a : Adjective N) (ha : a ∈ F.adjectives) : (a.name == name) = false :=
    beq_eq_false_iff_ne.mpr (adjective?_eq_none.mp h a ha)
  rw [withGetter, List.map_congr_left fun a ha => by rw [other a ha]]
  simp

theorem setGetter_eq : F.setGetter name getter = match F.adjective? name with
    | none => .error (.unknownAdjective name)
    | some _ => .ok (F.withGetter name getter) := modify_eq F name _

end Getters

end Framework

namespace Explainer

/-! ### Calls and operations -/

section Operations
variable (E : Explainer N)

theorem addFramework_eq (key : String) (F : Framework N) : E.addFramework key F =
    if (E.framework? key).isSome then .error (.duplicateFramework key)
    else match F.validate with
      | .error e => .error (.framework e)
      | .ok () => .ok { E with frameworks := E.frameworks ++ [(key, F)] } := by
  unfold addFramework
  by_cases hdup : (E.framework? key).isSome
  · simp only [hdup]; rfl
  · simp only [hdup]
    cases F.validate <;> rfl

theorem configure_eq (patch : SettingsPatch) : E.configure patch =
    if ∃ key, patch.framework = some key ∧ E.framework? key = none then
      .error (.unknownFramework (patch.framework.getD ""))
    else .ok { E with settings := E.settings.merge patch } := by
  unfold configure
  cases hkey : patch.framework with
  | none => simp; rfl
  | some key =>
    cases hF : E.framework? key <;> simp [hF] <;> rfl

theorem setGetter_eq (name : String) (getter : Getter N) : E.setGetter name getter =
    if E.frameworks.any fun entry => (entry.2.adjective? name).isSome then
      .ok { E with frameworks := E.frameworks.map fun entry => (entry.1, entry.2.withGetter name getter) }
    else .error (.noSuchGetterTarget name) := by
  unfold setGetter
  refine if_congr Iff.rfl ?_ rfl
  congr 2
  refine List.map_congr_left fun (key, F) _ => ?_
  dsimp only
  rw [F.setGetter_eq]
  cases h : F.adjective? name with
  | none => rw [F.withGetter_of_none name getter h]
  | some a => rfl

theorem run_setGetterFrom (name : String) (getter : Getter N) (found : Bool) (visited rest : List (String × Framework N))
    (split : E.frameworks = visited ++ rest) :
    (Registering.setGetterFrom name getter found visited rest).run E =
      .ok (found || rest.any fun entry => (entry.2.adjective? name).isSome)
        { E with frameworks := visited ++ rest.map fun entry => (entry.1, entry.2.withGetter name getter) } := by
  induction rest generalizing E found visited with
  | nil => simp [Registering.setGetterFrom, ← split]
  | cons entry rest ih =>
    obtain ⟨key, F⟩ := entry
    rw [Registering.setGetterFrom]
    cases h : F.adjective? name with
    | none =>
      rw [if_neg (by simp), ih E found (visited ++ [(key, F)]) (by simp [split])]
      simp [h, F.withGetter_of_none name getter h]
    | some a =>
      rw [if_pos Option.isSome_some, F.setGetter_eq, h]
      dsimp only
      rw [EStateM.run_bind, EStateM.run_modify]
      dsimp only
      rw [ih _ true (visited ++ [(key, F.withGetter name getter)]) (by simp)]
      simp [h]

theorem run_addFramework (key : String) (F : Framework N) :
    (Registering.addFramework key F).run E = InPlace.whole E ((E.addFramework key F).map ((), ·)) := by
  rw [addFramework_eq, Registering.addFramework, EStateM.run_bind, EStateM.run_get]
  cases hF : E.framework? key with
  | some G => simp [hF, InPlace.whole, Except.map]
  | none => cases F.validate <;> simp [hF, InPlace.whole, Except.map]

theorem run_configure (patch : SettingsPatch) :
    (Registering.configure patch).run E = InPlace.whole E ((E.configure patch).map ((), ·)) := by
  rw [configure_eq, Registering.configure]
  cases hkey : patch.framework with
  | none => simp [InPlace.whole, Except.map]
  | some key => cases hF : E.framework? key <;> simp [hF, InPlace.whole, Except.map]

theorem run_configureJson (value : Json) :
    (Registering.configureJson value).run E = InPlace.whole E ((E.configureJson value).map ((), ·)) := by
  unfold Registering.configureJson configureJson
  cases SettingsPatch.ofJson value with
  | error e => rfl
  | ok patch => exact run_configure E patch

theorem run_setGetter (name : String) (getter : Getter N) :
    (Registering.setGetter name getter).run E = InPlace.whole E ((E.setGetter name getter).map ((), ·)) := by
  rw [setGetter_eq, Registering.setGetter, EStateM.run_bind, EStateM.run_get]
  dsimp only
  rw [EStateM.run_bind, run_setGetterFrom E name getter false [] E.frameworks rfl]
  cases hany : E.frameworks.any fun entry => (entry.2.adjective? name).isSome with
  | true => simp [InPlace.whole, Except.map]
  | false =>
    have undefined (entry : String × Framework N) (h : entry ∈ E.frameworks) : entry.2.withGetter name getter = entry.2 :=
      entry.2.withGetter_of_none name getter (by simpa using List.any_eq_false.mp hany entry h)
    have same : (E.frameworks.map fun entry => (entry.1, entry.2.withGetter name getter)) = E.frameworks :=
      (List.map_congr_left fun entry h => by rw [undefined entry h, id]).trans (List.map_id _)
    simp [InPlace.whole, Except.map, same]

theorem run_call (registration : Registration N) :
    registration.call.run E = InPlace.whole E ((registration.operation E).map ((), ·)) := by
  cases registration with
  | addFramework key F => exact run_addFramework E key F
  | configure patch => exact run_configure E patch
  | configureJson value => exact run_configureJson E value
  | setGetter name getter => exact run_setGetter E name getter

end Operations

/-! ### What calls keep -/

/-- Distinct keys, valid frameworks, and a configured framework that is registered. -/
structure Sound (E : Explainer N) : Prop where
  distinct : E.keys.Nodup
  valid : ∀ entry ∈ E.frameworks, entry.2.validate = .ok ()
  configured : ∀ key, E.settings.framework = some key → key ∈ E.keys

theorem framework?_eq_none {E : Explainer N} {key : String} : E.framework? key = none ↔ key ∉ E.keys := by
  rw [framework?, keys, Option.map_eq_none_iff, List.find?_eq_none]
  simp only [beq_iff_eq, List.mem_map, not_exists, not_and]

theorem framework?_isSome {E : Explainer N} {key : String} : (E.framework? key).isSome ↔ key ∈ E.keys := by
  rw [Option.isSome_iff_ne_none, ← not_iff_not, ← framework?_eq_none, not_not]

/-- What is asked for counts first, then what is configured, then the first framework of all. -/
theorem resolve_selects (E : Explainer N) (overrides : SettingsPatch) :
    (∃ chosen, E.resolve overrides = .ok chosen) ↔ match overrides.framework.or E.settings.framework with
      | some key => key ∈ E.keys
      | none => E.keys ≠ [] := by
  unfold resolve
  cases overrides.framework.or E.settings.framework with
  | none =>
    cases hall : E.frameworks with
    | nil => simp [keys, hall, bind, Except.bind]
    | cons first rest => simp [keys, hall, bind, Except.bind, pure, Except.pure]
  | some key =>
    dsimp only
    rw [← framework?_isSome]
    cases E.framework? key with
    | none => simp [bind, Except.bind]
    | some F => simp [bind, Except.bind, pure, Except.pure]

namespace Sound

variable {E E' : Explainer N} (sound : E.Sound)

include sound

theorem addFramework {key : String} {F : Framework N} (h : E.addFramework key F = .ok E') : E'.Sound := by
  rw [addFramework_eq] at h
  split at h
  · cases h
  · rename_i hnew
    split at h
    · cases h
    · rename_i hvalid
      cases h
      have fresh : key ∉ E.keys := framework?_eq_none.mp (by simpa using hnew)
      refine ⟨?_, ?_, fun key' configured => ?_⟩
      · rw [keys, List.map_append, List.map_singleton, List.nodup_append]
        refine ⟨sound.distinct, List.nodup_singleton _, fun a ha b hb same => ?_⟩
        obtain rfl := List.mem_singleton.mp hb
        exact fresh (same ▸ ha)
      · exact List.forall_mem_append.mpr ⟨sound.valid, List.forall_mem_singleton.mpr hvalid⟩
      · rw [keys, List.map_append]
        exact List.mem_append_left _ (sound.configured key' configured)

theorem configure {patch : SettingsPatch} (h : E.configure patch = .ok E') : E'.Sound := by
  rw [configure_eq] at h
  split at h
  · cases h
  · rename_i hregistered
    cases h
    refine ⟨sound.distinct, sound.valid, fun key configured => ?_⟩
    rw [SettingsPatch.merge] at configured
    cases hkey : patch.framework with
    | none =>
      rw [hkey] at configured
      exact sound.configured key configured
    | some key' =>
      rw [hkey] at configured
      cases configured
      exact of_not_not fun absent => hregistered ⟨key, hkey, framework?_eq_none.mpr absent⟩

theorem configureJson {value : Json} (h : E.configureJson value = .ok E') : E'.Sound := by
  unfold Explainer.configureJson at h
  cases hpatch : SettingsPatch.ofJson value with
  | error e =>
    rw [hpatch] at h
    cases h
  | ok patch =>
    rw [hpatch] at h
    exact sound.configure h

theorem setGetter {name : String} {getter : Getter N} (h : E.setGetter name getter = .ok E') : E'.Sound := by
  rw [setGetter_eq] at h
  split at h
  · cases h
    have same : (E.frameworks.map fun entry => (entry.1, entry.2.withGetter name getter)).map (·.1) = E.keys := by
      rw [List.map_map]
      rfl
    refine ⟨?_, List.forall_mem_map.mpr fun entry h => ?_, fun key configured => ?_⟩
    · rw [keys, same]
      exact sound.distinct
    · exact (entry.2.validate_withGetter name getter).trans (sound.valid entry h)
    · rw [keys, same]
      exact sound.configured key configured
  · cases h

theorem operation {registration : Registration N} (h : registration.operation E = .ok E') : E'.Sound := by
  cases registration with
  | addFramework key F => exact sound.addFramework h
  | configure patch => exact sound.configure h
  | configureJson value => exact sound.configureJson h
  | setGetter name getter => exact sound.setGetter h

/-- One call, failing or not. -/
theorem leave (registration : Registration N) : (registration.leave E).Sound := by
  rw [Registration.leave, run_call]
  cases h : registration.operation E with
  | error e => exact sound
  | ok E' => exact sound.operation h

/-- What is configured is registered, so only what is asked for can fail to be. -/
theorem resolve_isOk (overrides : SettingsPatch) : (∃ chosen, E.resolve overrides = .ok chosen) ↔
    match overrides.framework with
    | some key => key ∈ E.keys
    | none => E.keys ≠ [] := by
  rw [resolve_selects]
  cases overrides.framework with
  | some key => rfl
  | none =>
    cases hconfigured : E.settings.framework with
    | none => rfl
    | some key =>
      have registered := sound.configured key hconfigured
      exact iff_of_true registered (List.ne_nil_of_mem registered)

end Sound

theorem registered_sound {E : Explainer N} (sound : E.Sound) (registrations : List (Registration N)) :
    (E.registered registrations).Sound := by
  induction registrations generalizing E with
  | nil => exact sound
  | cons registration rest ih => exact ih (sound.leave registration)

/-- An explainer whose calls do what they say, whatever calls come next. -/
structure Reliable (E : Explainer N) : Prop where
  sound : E.Sound
  /-- A call does what the operation of its name gives. -/
  outcome : ∀ registration : Registration N,
    registration.call.run E = InPlace.whole E ((registration.operation E).map ((), ·))
  /-- A failing call changes nothing. -/
  refused : ∀ (registration : Registration N) e E', registration.call.run E = .error e E' → E' = E
  /-- A getter is set in every framework that defines the adjective, and nothing else changes. -/
  getters : ∀ name getter E', (Registering.setGetter name getter).run E = .ok () E' ↔
    (∃ entry ∈ E.frameworks, (entry.2.adjective? name).isSome) ∧
      E' = { E with frameworks := E.frameworks.map fun entry => (entry.1, entry.2.withGetter name getter) }
  /-- A framework is chosen unless one is asked for that is not registered, or none is registered at all. -/
  resolves : ∀ overrides, (∃ chosen, E.resolve overrides = .ok chosen) ↔ match overrides.framework with
    | some key => key ∈ E.keys
    | none => E.keys ≠ []

theorem Sound.reliable {E : Explainer N} (sound : E.Sound) : E.Reliable where
  sound := sound
  outcome := run_call E
  refused registration e E' failed := InPlace.whole_eq_error ((run_call E registration).symm.trans failed)
  getters name getter E' := by
    rw [run_setGetter, setGetter_eq, ← List.any_eq_true]
    split
    · rename_i defined
      rw [and_iff_right defined]
      exact ⟨fun h => (Except.ok.inj (InPlace.whole_map_eq_ok h)).symm, fun h => h ▸ rfl⟩
    · rename_i undefined
      exact iff_of_false (fun h => by cases InPlace.whole_map_eq_ok h) fun h => undefined h.1
  resolves := sound.resolve_isOk

/-- Calls from an empty explainer on, in any order and failing ones included, leave a reliable explainer. -/
theorem registered_reliable (registrations : List (Registration N)) :
    (({} : Explainer N).registered registrations).Reliable := by
  have sound : ({} : Explainer N).Sound := ⟨List.nodup_nil, by simp, by simp⟩
  exact (registered_sound sound registrations).reliable

end Explainer

end Rationale
