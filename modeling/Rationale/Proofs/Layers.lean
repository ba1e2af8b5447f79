import Rationale.Proofs.Registrations

/-!
Layers of settings. Patches that are laid over one another, and settings that patches are applied to, keep of every
field what the last of them sets. So it makes no difference whether patches are merged and applied at once or applied
one by one, and what a call uses can be told from the patches that were configured and its own: the framework that the
last of them asks for, and each field as the last of them sets it, over the defaults of that framework.
-/

namespace Rationale

variable {N : Type}

/-- What the last of the layers that set something sets. -/
def lastSet {α : Type} (set? : SettingsPatch → Option α) (layers : List SettingsPatch) : Option α :=
  (layers.filterMap set?).getLast?

section LastSet
variable {α : Type} {set? : SettingsPatch → Option α}

theorem lastSet_cons (base : SettingsPatch) (layers : List SettingsPatch) :
    lastSet set? (base :: layers) = (lastSet set? layers).or (set? base) := by
  unfold lastSet
  cases h : set? base with
  | none => simp [h]
  | some value => rw [List.filterMap_cons_some h, List.getLast?_cons]; cases (layers.filterMap set?).getLast? <;> rfl

theorem lastSet_concat (layers : List SettingsPatch) (top : SettingsPatch) :
    lastSet set? (layers ++ [top]) = (set? top).or (lastSet set? layers) := by
  rw [lastSet, List.filterMap_append, List.getLast?_append]
  cases h : set? top <;> simp [lastSet, h]

/-- What two patches keep of a field when they are merged, any number of them keep. -/
theorem lastSet_foldl (merge : ∀ base top, set? (.merge base top) = (set? top).or (set? base)) (base : SettingsPatch)
    (layers : List SettingsPatch) : set? (layers.foldl SettingsPatch.merge base) = lastSet set? (base :: layers) := by
  induction layers generalizing base with
  | nil => rw [lastSet_cons]; rfl
  | cons top layers ih =>
    rw [List.foldl_cons, ih, lastSet_cons, lastSet_cons, lastSet_cons, merge, Option.or_assoc]

end LastSet

/-- The fields that tell how an explanation is made and shown. -/
inductive SettingsField
  | explanationDepth
  | printImplicitAssumptions
  | verbosity
  | printMode
  | printDepth

namespace SettingsField

def Value : SettingsField → Type
  | .explanationDepth => Nat
  | .printImplicitAssumptions => Bool
  | .verbosity => Verbosity
  | .printMode => PrintMode
  | .printDepth => Bool

def get (settings : Settings) : (x : SettingsField) → x.Value
  | .explanationDepth => settings.explanationDepth
  | .printImplicitAssumptions => settings.printImplicitAssumptions
  | .verbosity => settings.verbosity
  | .printMode => settings.printMode
  | .printDepth => settings.printDepth

/-- What a patch sets the field to, if it does. -/
def set? : (x : SettingsField) → SettingsPatch → Option x.Value
  | .explanationDepth, p => p.explanationDepth
  | .printImplicitAssumptions, p => p.printImplicitAssumptions
  | .verbosity, p => p.verbosity
  | .printMode, p => p.printMode
  | .printDepth, p => p.printDepth

variable (x : SettingsField)

theorem get_apply (settings : Settings) (p : SettingsPatch) :
    x.get (settings.apply p) = (x.set? p).getD (x.get settings) := by
  cases x <;> rfl

theorem set?_merge (base top : SettingsPatch) : x.set? (base.merge top) = (x.set? top).or (x.set? base) := by
  cases x <;> rfl

end SettingsField

theorem Settings.eq_of_get {s s' : Settings} (fields : ∀ x : SettingsField, x.get s = x.get s')
    (framework : s.framework = s'.framework) : s = s' := by
  obtain ⟨depth, implicit, verbosity, mode, key, marks⟩ := s
  cases fields .explanationDepth
  cases fields .printImplicitAssumptions
  cases fields .verbosity
  cases fields .printMode
  cases fields .printDepth
  cases framework
  rfl

/-- Several patches as one. -/
def SettingsPatch.merged (patches : List SettingsPatch) : SettingsPatch := patches.foldl SettingsPatch.merge {}

theorem Settings.apply_merge (s : Settings) (base top : SettingsPatch) :
    s.apply (base.merge top) = (s.apply base).apply top := by
  refine eq_of_get (fun x => ?_) Option.or_assoc
  rw [x.get_apply, x.get_apply, x.get_apply, x.set?_merge, Option.getD_or]

theorem Settings.apply_foldl (s : Settings) (base : SettingsPatch) (patches : List SettingsPatch) :
    s.apply (patches.foldl SettingsPatch.merge base) = patches.foldl Settings.apply (s.apply base) := by
  induction patches generalizing base with
  | nil => rfl
  | cons top patches ih => rw [List.foldl_cons, List.foldl_cons, ih, apply_merge]

theorem SettingsPatch.merge_assoc (bottom base top : SettingsPatch) :
    (bottom.merge base).merge top = bottom.merge (base.merge top) := by
  simp only [merge, Option.or_assoc]

theorem SettingsPatch.merge_merged (base : SettingsPatch) (patches : List SettingsPatch) :
    base.merge (.merged patches) = patches.foldl SettingsPatch.merge base := by
  have lies (middle : SettingsPatch) : base.merge (patches.foldl SettingsPatch.merge middle)
      = patches.foldl SettingsPatch.merge (base.merge middle) := by
    induction patches generalizing middle with
    | nil => rfl
    | cons top patches ih => rw [List.foldl_cons, List.foldl_cons, ih, merge_assoc]
  exact lies {}

/-! ### Configured patches -/

theorem InPlace.left_whole {ε σ : Type} (s : σ) (r : Except ε σ) :
    left (whole s (r.map ((), ·))) = r.toOption.getD s := by
  cases r <;> rfl

namespace Explainer

/-- The patch, if the explainer takes it. -/
def taken? (E : Explainer N) (patch : SettingsPatch) : Option SettingsPatch :=
  if (E.configure patch).isOk then some patch else none

/-- The patch that a call lays over the settings, if it does. -/
def patch? (E : Explainer N) : Registration N → Option SettingsPatch
  | .configure patch => E.taken? patch
  | .configureJson value => (SettingsPatch.ofJson value).toOption.bind E.taken?
  | .addFramework _ _ => none
  | .setGetter _ _ => none

/-- The patches that calls lay over the settings, in their order. -/
def patches (E : Explainer N) : List (Registration N) → List SettingsPatch
  | [] => []
  | registration :: rest => (E.patch? registration).toList ++ patches (registration.leave E) rest

theorem settings_configure (E : Explainer N) (patch : SettingsPatch) :
    ((E.configure patch).toOption.getD E).settings = (E.taken? patch).toList.foldl SettingsPatch.merge E.settings := by
  rw [taken?, configure_eq]
  split <;> rfl

/-- One call lays its patch over the settings, or leaves them alone. -/
theorem settings_leave (E : Explainer N) (registration : Registration N) :
    (registration.leave E).settings = (E.patch? registration).toList.foldl SettingsPatch.merge E.settings := by
  rw [Registration.leave, run_call, InPlace.left_whole]
  cases registration with
  | addFramework key F =>
    rw [Registration.operation, addFramework_eq]
    split
    · rfl
    · cases F.validate <;> rfl
  | configure patch => exact E.settings_configure patch
  | configureJson value =>
    rw [Registration.operation, configureJson, patch?]
    cases SettingsPatch.ofJson value with
    | error e => rfl
    | ok patch => exact E.settings_configure patch
  | setGetter name getter =>
    rw [Registration.operation, setGetter_eq]
    split <;> rfl

/-- Calls lay the patches that are taken over the settings, one after the other. -/
theorem settings_registered (E : Explainer N) (registrations : List (Registration N)) :
    (E.registered registrations).settings = (E.patches registrations).foldl SettingsPatch.merge E.settings := by
  induction registrations generalizing E with
  | nil => rfl
  | cons registration rest ih =>
    rw [patches, List.foldl_append, ← settings_leave, ← ih]
    rfl

/-- What a call uses over layers of settings: a framework, and settings for it. -/
structure Uses (E : Explainer N) (layers : List SettingsPatch) (F : Framework N) (settings : Settings) : Prop where
  /-- The framework is the one that the last layer asks for, and the first one if none does. -/
  framework : ∃ key, settings.framework = some key ∧
    match lastSet (·.framework) layers with
    | some asked => key = asked ∧ E.framework? key = some F
    | none => E.frameworks.head? = some (key, F)
  /-- Each field is as the last layer sets it, over the defaults of the framework, or as it is built in. -/
  fields : ∀ x : SettingsField, x.get settings = (lastSet x.set? (F.settings :: layers)).getD (x.get {})

theorem resolve_eq_ok {E : Explainer N} {overrides : SettingsPatch} {F : Framework N} {settings : Settings} :
    E.resolve overrides = .ok (F, settings) ↔ ∃ key,
      (match overrides.framework.or E.settings.framework with
        | some asked => key = asked ∧ E.framework? key = some F
        | none => E.frameworks.head? = some (key, F)) ∧
      settings =
        { ((({} : Settings).apply F.settings).apply E.settings).apply overrides with framework := some key } := by
  unfold resolve
  -- A framework that is asked for is looked up; without one the first that was added is taken.
  cases overrides.framework.or E.settings.framework with
  | some asked =>
    dsimp only
    cases hF : E.framework? asked with
    | none =>
      refine ⟨fun h => (by cases h), ?_⟩
      rintro ⟨key, ⟨rfl, found⟩, -⟩
      rw [hF] at found
      cases found
    | some G =>
      constructor
      · intro h
        cases h
        exact ⟨asked, ⟨rfl, hF⟩, rfl⟩
      · rintro ⟨key, ⟨rfl, found⟩, rfl⟩
        rw [hF] at found
        cases found
        rfl
  | none =>
    dsimp only
    cases E.frameworks with
    | nil =>
      refine ⟨fun h => (by cases h), ?_⟩
      rintro ⟨key, found, -⟩
      cases found
    | cons first rest =>
      obtain ⟨key, G⟩ := first
      constructor
      · intro h
        cases h
        exact ⟨key, rfl, rfl⟩
      · rintro ⟨key', found, rfl⟩
        cases found
        rfl

/-- A call uses what the last layer sets: of those configured so far, in whatever calls and failing ones included, and
its own. Merged and applied at once, the configured layers come to the same as one by one. -/
theorem resolve_lastSet (E : Explainer N) (registrations : List (Registration N)) (overrides : SettingsPatch) :
    (∀ F settings, (E.registered registrations).resolve overrides = .ok (F, settings) ↔
      (E.registered registrations).Uses (E.settings :: E.patches registrations ++ [overrides]) F settings) ∧
    (E.registered registrations).settings = E.settings.merge (.merged (E.patches registrations)) ∧
    ∀ (patches : List SettingsPatch) (settings : Settings),
      settings.apply (.merged patches) = patches.foldl Settings.apply settings := by
  have configured := E.settings_registered registrations
  -- Calls merge the patches one into the other, and the patch of this call is laid over all of them.
  have laid {α : Type} (set? : SettingsPatch → Option α)
      (merge : ∀ base top, set? (.merge base top) = (set? top).or (set? base)) :
      lastSet set? (E.settings :: E.patches registrations ++ [overrides])
        = (set? overrides).or (set? (E.registered registrations).settings) := by
    rw [lastSet_concat, configured, lastSet_foldl merge]
  refine ⟨fun F settings => ?_, ?_, fun patches settings => settings.apply_foldl {} patches⟩
  · have field (x : SettingsField) (key : Option String) :
        x.get { ((({} : Settings).apply F.settings).apply (E.registered registrations).settings).apply overrides with
          framework := key }
        = (lastSet x.set? (F.settings :: (E.settings :: E.patches registrations ++ [overrides]))).getD (x.get {}) := by
      rw [lastSet_cons, laid x.set? x.set?_merge, Option.getD_or, Option.getD_or, ← x.get_apply, ← x.get_apply,
        ← x.get_apply]
      cases x <;> rfl
    rw [resolve_eq_ok, ← laid SettingsPatch.framework fun _ _ => rfl]
    constructor
    · rintro ⟨key, selected, rfl⟩
      exact ⟨⟨key, rfl, selected⟩, fun x => field x _⟩
    · rintro ⟨⟨key, hkey, selected⟩, fields⟩
      exact ⟨key, selected, Settings.eq_of_get (fun x => (fields x).trans (field x _).symm) hkey⟩
  · rw [configured, SettingsPatch.merge_merged]

end Explainer

end Rationale
