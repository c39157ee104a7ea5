import SchemaPlan.Plan
import SchemaPlan.Proofs.Config.Objection
import SchemaPlan.Proofs.Config.Reading

/-!
# The verdict on settings

The objections to settings are stated here one by one, without regard to how settings are read, and
in the order in which they are raised. A run fails exactly when one of them holds, with the fault of
the first (`Plan.prepare_follows_objections`).
-/

set_option autoImplicit false
set_option relaxedAutoImplicit false

namespace SchemaPlan

/-! ### Objections to settings -/

/-- Whether a setting spells a strategy. -/
def Setting.IsStrategy : Setting → Prop
  | .text value => ∃ strategy : Strategy, Text.trim value = strategy.name
  | _ => False

/-- Whether a setting is a flag or spells one. -/
def Setting.IsFlag : Setting → Prop
  | .flag _ => True
  | .text value =>
    Text.equalsIgnoringAsciiCase (Text.trim value) "true" ∨
      Text.equalsIgnoringAsciiCase (Text.trim value) "false"
  | .list _ => False

namespace Settings

/-- An objection to what is under a key, or to there being nothing. -/
def objection (settings : Settings) (key : String) (holds : Prop)
    (complaint : Setting → Complaint) : Objection :=
  ⟨holds, .configuration key (((settings.get? key).map complaint).getD .missing)⟩

/-- An objection to what is under a key, if there is something. -/
def objectionIfSet (settings : Settings) (key : String) (wrong : Setting → Prop)
    (complaint : Setting → Complaint) : Objection :=
  settings.objection key (∃ setting, settings.get? key = some setting ∧ wrong setting) complaint

/-- There is no text for the output directory, or a blank one. -/
def outputObjection (settings : Settings) : Objection :=
  settings.objection outputKey (settings.trimmedText outputKey = "") fun setting ↦
    .pathExpected setting.shape

/-- No model is listed. -/
def modelsObjection (settings : Settings) : Objection :=
  settings.objection modelsKey (settings.listedModels = []) fun setting ↦
    if setting.shape = .flag then .entriesExpected .flag else .noModels

/-- There is an import, but no text or a blank one, or it is relative and cannot be rebased. -/
def importObjection (settings : Settings) (schemaPath : String) : Objection :=
  let spec := settings.trimmedText importKey
  let output := settings.trimmedText outputKey
  settings.objectionIfSet importKey
    (fun _ ↦ spec = "" ∨ isRelativeImport spec ∧ rebaseImport? spec schemaPath output = none)
    fun setting ↦
      if spec = "" then .textExpected setting.shape else .notRebasable spec schemaPath output

/-- The strategy set for a model is none. -/
def strategyObjection (settings : Settings) (model : String) : Objection :=
  settings.objectionIfSet (Aspect.optimistic.key model) (¬·.IsStrategy) fun
    | .text text => .unknownStrategy text
    | other => .strategyExpected other.shape

/-- What is set for the pagination of a model is no flag. -/
def paginationObjection (settings : Settings) (model : String) : Objection :=
  settings.objectionIfSet (Aspect.pagination.key model) (¬·.IsFlag) fun
    | .text text => .unknownFlag text
    | other => .flagExpected other.shape

/-- A listed model is not declared. -/
def unknownObjection (settings : Settings) (schema : Schema) : Objection :=
  ⟨∃ model ∈ settings.listedModels, model ∉ schema.names,
    .unknownModels (settings.listedModels.filter (· ∉ schema.names))⟩

/-- The fields set for a model are a flag. -/
def selectObjection (settings : Settings) (model : String) : Objection :=
  settings.objectionIfSet (Aspect.select.key model) (·.shape = .flag) fun setting ↦
    .fieldNamesExpected setting.shape.name

/-- The objections to what stands under the keys that are read. -/
def readingObjections (settings : Settings) (schemaPath : String) : List Objection :=
  settings.outputObjection :: settings.modelsObjection :: settings.importObjection schemaPath ::
    settings.listedModels.flatMap fun model ↦
      [settings.strategyObjection model, settings.paginationObjection model]

/-- The objections to what does not fit the schema or the other settings. -/
def checkingObjections (settings : Settings) (schema : Schema) : List Objection :=
  settings.unknownObjection schema :: settings.listedModels.map settings.selectObjection

/-- All objections to settings, in the order in which they are raised. -/
def objections (settings : Settings) (schema : Schema) (schemaPath : String) : List Objection :=
  settings.readingObjections schemaPath ++ settings.checkingObjections schema

end Settings

open Objection

variable {settings : Settings} {schemaPath : String}

/-! ### Single keys -/

section Keys

variable {α : Type} {key : String} {holds : Prop} {complaint : Setting → Complaint}

/-- Where there is nothing under a key that has to be set, that is the fault. -/
theorem decides_missing (h : settings.get? key = none) (hholds : holds) :
    Decides [settings.objection key holds complaint]
      (.error (.configuration key .missing) : Except Fault α) := by
  have hfault : (settings.objection key holds complaint).fault = .configuration key .missing := by
    rw [Settings.objection, h, Option.map_none, Option.getD_none]
  rw [← hfault]
  exact decides_error hholds

/-- Where something wrong is under a key, the fault is the complaint about it. -/
theorem decides_complaint {setting : Setting} (h : settings.get? key = some setting)
    (hholds : holds) {found : Complaint} (hfound : complaint setting = found) :
    Decides [settings.objection key holds complaint]
      (.error (.configuration key found) : Except Fault α) := by
  have hfault : (settings.objection key holds complaint).fault = .configuration key found := by
    rw [Settings.objection, h, Option.map_some, Option.getD_some, hfound]
  rw [← hfault]
  exact decides_error hholds

variable {wrong : Setting → Prop}

/-- Nothing is objected to where a key that can be left out is not set. -/
theorem decides_absent (h : settings.get? key = none) (value : α) :
    Decides [settings.objectionIfSet key wrong complaint] (.ok value) := by
  refine decides_ok ?_ value
  rintro ⟨setting, hsetting, -⟩
  rw [h] at hsetting
  cases hsetting

/-- Nothing is objected to where what is under a key is right. -/
theorem decides_set {setting : Setting} (h : settings.get? key = some setting)
    (hright : ¬wrong setting) (value : α) :
    Decides [settings.objectionIfSet key wrong complaint] (.ok value) := by
  refine decides_ok ?_ value
  rintro ⟨other, hother, hwrong⟩
  obtain rfl : setting = other := Option.some.inj (h.symm.trans hother)
  exact hright hwrong

end Keys

/-- Reading the output directory is decided by the objection to it. -/
theorem decides_readOutput : Decides [settings.outputObjection] (readOutput settings) := by
  unfold readOutput
  split
  · next h => exact decides_missing h (by rw [Settings.trimmedText, h])
  · next path h =>
    have htrim := Settings.trimmedText_of_text h
    split
    · next hpath => exact decides_ok (fun hblank ↦ hpath (htrim ▸ hblank)) _
    · next hpath => exact decides_complaint h (htrim.trans (Decidable.not_not.1 hpath)) rfl
  · next other hother h =>
    exact decides_complaint h (Settings.trimmedText_of_not_text h hother) rfl

/-- The settings that list no names are the flags. -/
theorem Setting.entries?_eq_none_iff {setting : Setting} :
    setting.entries? = none ↔ setting.shape = .flag := by
  cases setting <;> simp [entries?, shape]

/-- Reading the models is decided by the objection to them. -/
theorem decides_readModels : Decides [settings.modelsObjection] (readModels settings) := by
  unfold readModels
  split
  · next h => exact decides_missing h (by simp [Settings.listedModels, h])
  · next setting h =>
    split
    · next hentries =>
      have hflag := Setting.entries?_eq_none_iff.1 hentries
      refine decides_complaint h (by simp [Settings.listedModels, h, hentries]) ?_
      rw [if_pos hflag, hflag]
    · next entries hentries =>
      have hflag : setting.shape ≠ .flag := by
        simp [← Setting.entries?_eq_none_iff, hentries]
      have hlisted : settings.listedModels = entries.eraseDups := by
        simp [Settings.listedModels, h, hentries]
      split
      · next hempty =>
        refine decides_complaint h ?_ (if_neg hflag)
        rw [hlisted, eraseDups_eq_nil_iff, List.isEmpty_iff.1 hempty]
      · next hempty =>
        refine decides_ok (fun hnil ↦ hempty ?_) _
        rw [List.isEmpty_iff, ← eraseDups_eq_nil_iff, ← hlisted]
        exact hnil

/-- Only relative imports cannot be rebased. -/
theorem isRelativeImport_of_rebaseImport?_eq_none {spec output : String}
    (h : rebaseImport? spec schemaPath output = none) : isRelativeImport spec := by
  by_contra hrelative
  rw [rebaseImport?, if_neg hrelative] at h
  cases h

/-- Reading the import is decided by the objection to it. -/
theorem decides_readImport : Decides [settings.importObjection schemaPath]
    (readImport settings schemaPath (settings.trimmedText outputKey)) := by
  unfold readImport
  split
  · next h => exact decides_absent h _
  · next text h =>
    have htrim := Settings.trimmedText_of_text h
    dsimp only
    split
    · next htext =>
      rw [← htrim] at htext ⊢
      split
      · next rebased hrebased =>
        refine decides_set h ?_ _
        rintro (hblank | ⟨-, hnone⟩)
        · exact htext hblank
        · rw [hrebased] at hnone
          cases hnone
      · next hrebased =>
        have hrelative := isRelativeImport_of_rebaseImport?_eq_none hrebased
        exact decides_complaint h ⟨_, h, .inr ⟨hrelative, hrebased⟩⟩ (if_neg htext)
    · next htext =>
      have hblank := htrim.trans (Decidable.not_not.1 htext)
      exact decides_complaint h ⟨_, h, .inl hblank⟩ (if_pos hblank)
  · next other hother h =>
    have hblank := Settings.trimmedText_of_not_text h hother
    exact decides_complaint h ⟨_, h, .inl hblank⟩ (if_pos hblank)

/-! ### Override keys -/

theorem Strategy.exists_ofText?_iff (text : String) :
    (∃ strategy, ofText? text = some strategy) ↔ (Setting.text text).IsStrategy := by
  rw [← Option.isSome_iff_exists, ofText?, Json.alternative?, List.find?_isSome]
  constructor
  · rintro ⟨strategy, -, hname⟩
    exact ⟨strategy, (beq_iff_eq.1 hname).symm⟩
  · rintro ⟨strategy, hname⟩
    refine ⟨strategy, ?_, beq_iff_eq.2 hname.symm⟩
    cases strategy <;> simp [all]

/-- Reading the strategy for a model is decided by the objection to it. -/
theorem decides_readStrategy (model : String) :
    Decides [settings.strategyObjection model] (readStrategy settings model) := by
  unfold readStrategy
  dsimp only
  split
  · next h => exact decides_absent h _
  · next text h =>
    have hiff := Strategy.exists_ofText?_iff text
    cases hstrategy : Strategy.ofText? text with
    | some strategy =>
      exact decides_set h (not_not_intro (hiff.1 ⟨strategy, hstrategy⟩)) _
    | none =>
      refine decides_complaint h ⟨_, h, fun hlegal ↦ ?_⟩ rfl
      obtain ⟨strategy, hsome⟩ := hiff.2 hlegal
      rw [hstrategy] at hsome
      cases hsome
  · next other hother h =>
    cases other with
    | text text => exact (hother text rfl).elim
    | _ => exact decides_complaint h ⟨_, h, id⟩ rfl

/-- Reading the pagination of a model is decided by the objection to it. -/
theorem decides_readPagination (model : String) :
    Decides [settings.paginationObjection model] (readPagination settings model) := by
  unfold readPagination
  dsimp only
  split
  · next h => exact decides_absent h _
  · next value h => exact decides_set h (not_not_intro trivial) _
  · next text h =>
    split
    · next htrue => exact decides_set h (not_not_intro (.inl htrue)) _
    · next htrue =>
      split
      · next hfalse => exact decides_set h (not_not_intro (.inr hfalse)) _
      · next hfalse => exact decides_complaint h ⟨_, h, not_or.2 ⟨htrue, hfalse⟩⟩ rfl
  · next other hflag htext h =>
    cases other with
    | flag value => exact (hflag value rfl).elim
    | text text => exact (htext text rfl).elim
    | list items => exact decides_complaint h ⟨_, h, id⟩ rfl

/-- Reading the overrides is decided by the objections to those of one model after another. -/
theorem decides_readAllOverrides (models : List String) :
    Decides (models.flatMap fun model ↦
        [settings.strategyObjection model, settings.paginationObjection model])
      (readAllOverrides settings models) := by
  induction models with
  | nil => exact .ok (List.forall_mem_nil _)
  | cons model rest ih =>
    have hmodel : Decides [settings.strategyObjection model, settings.paginationObjection model]
        (readOverrides settings model) := by
      rw [readOverrides_eq_bind]
      simp only [bind_pure_comp]
      exact (decides_readStrategy model).bind fun _ _ ↦ (decides_readPagination model).map _
    rw [readAllOverrides_cons]
    simp only [bind_pure_comp]
    exact hmodel.bind fun _ _ ↦ ih.map _

/-! ### Whole configurations -/

namespace Config

/-- Reading a configuration is decided by the objections to what stands under the keys. -/
theorem decides_ofSettings :
    Decides (settings.readingObjections schemaPath) (ofSettings settings schemaPath) := by
  refine decides_readOutput.bind fun output houtput ↦ ?_
  refine decides_readModels.bind fun models hmodels ↦ ?_
  -- The later objections are in terms of the settings, not of what has been read from them.
  rw [readOutput_eq_ok houtput, readModels_eq_ok hmodels]
  refine decides_readImport.bind fun importPath _ ↦ ?_
  rw [bind_pure_comp]
  exact (decides_readAllOverrides settings.listedModels).map _

variable {config : Config} (h : ofSettings settings schemaPath = .ok config)
include h

/-- The models that are reported as undeclared are the listed ones that are not in the schema. -/
theorem undeclared_ofSettings (schemaNames : List String) :
    config.undeclared schemaNames = settings.listedModels.filter (· ∉ schemaNames) := by
  obtain ⟨-, hmodels, -⟩ := ofSettings_eq_ok h
  rw [undeclared, hmodels, eraseDups_eq_self (settings.nodup_listedModels.filter _)]
  simp

/-- The fields set for a configured model are malformed when there is a flag in their place. -/
theorem malformedSelect?_ofSettings {model : String} (hmodel : model ∈ config.models) :
    config.malformedSelect? model =
      match settings.get? (Aspect.select.key model) with
      | some (.flag _) =>
        some (.configuration (Aspect.select.key model) (.fieldNamesExpected Shape.flag.name))
      | _ => none := by
  obtain ⟨overrides, hoverrides, hread⟩ := overrides?_ofSettings h hmodel
  rw [malformedSelect?, hoverrides, Option.bind_some, select_of_readOverrides hread, readSelect]
  cases settings.get? (Aspect.select.key model) with
  | none => rfl
  | some setting => cases setting <;> rfl

/-- The check of all the fields that are set is decided by the objections to them, model by
model. -/
theorem decides_selects : Decides (settings.listedModels.map settings.selectObjection)
    (match config.models.findSome? config.malformedSelect? with
    | some fault => .error fault
    | none => .ok ()) := by
  obtain ⟨-, hmodels, -⟩ := ofSettings_eq_ok h
  rw [hmodels]
  refine decides_findSome? settings.listedModels ?_ ?_
  · intro model hmodel fault hfault
    rw [malformedSelect?_ofSettings h (hmodels ▸ hmodel)] at hfault
    split at hfault
    · next value hvalue =>
      cases hfault
      refine ⟨⟨_, hvalue, rfl⟩, ?_⟩
      simp [Settings.selectObjection, Settings.objectionIfSet, Settings.objection, hvalue,
        Setting.shape]
    · cases hfault
  · rintro model hmodel hnone ⟨setting, hsetting, hflag⟩
    rw [malformedSelect?_ofSettings h (hmodels ▸ hmodel), hsetting] at hnone
    cases setting with
    | flag value => cases hnone
    | _ => cases hflag

/-- The check against a schema is decided by the objections to what does not fit it. -/
theorem decides_check (schema : Schema) :
    Decides (settings.checkingObjections schema) (config.check schema.names) := by
  have hmem {model : String} : model ∈ config.undeclared schema.names ↔
      model ∈ settings.listedModels ∧ model ∉ schema.names := by
    rw [undeclared_ofSettings h, List.mem_filter, decide_eq_true_iff]
  unfold check
  cases hunknown : config.undeclared schema.names with
  | nil =>
    have hdeclared : ¬(settings.unknownObjection schema).Holds := by
      rintro ⟨model, hmodel⟩
      have hundeclared := hmem.2 hmodel
      rw [hunknown] at hundeclared
      cases hundeclared
    exact (decides_ok hdeclared ()).bind fun _ _ ↦ decides_selects h
  | cons first rest =>
    have hholds : (settings.unknownObjection schema).Holds :=
      ⟨first, hmem.1 (hunknown ▸ List.mem_cons_self)⟩
    dsimp only
    rw [← hunknown, undeclared_ofSettings h]
    exact .error (.head hholds)

end Config

/-! ### Runs -/

/-- A run is decided by all objections, in the order in which they are raised. -/
theorem Plan.decides_prepare (schema : Schema) (settings : Settings) (schemaPath : String) :
    Decides (settings.objections schema schemaPath) (prepare schema settings schemaPath) := by
  have hconfig : Decides (settings.objections schema schemaPath)
      (Config.ofSettingsFor schema settings schemaPath) := by
    refine Config.decides_ofSettings.bind fun config h ↦ ?_
    rw [bind_pure_comp]
    exact (Config.decides_check h schema).map _
  exact hconfig.map _

/-- A run succeeds exactly when no objection to the settings holds. Otherwise its fault is that of
the first that does. -/
theorem Plan.prepare_follows_objections (schema : Schema) (settings : Settings)
    (schemaPath : String) :
    ((∃ plan, prepare schema settings schemaPath = .ok plan) ↔
        ∀ objection ∈ settings.objections schema schemaPath, ¬objection.Holds) ∧
      ∀ fault, prepare schema settings schemaPath = .error fault ↔
        First (settings.objections schema schemaPath) fault :=
  ⟨(decides_prepare schema settings schemaPath).exists_ok_iff,
    (decides_prepare schema settings schemaPath).eq_error_iff⟩

end SchemaPlan
