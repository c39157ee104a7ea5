import SchemaPlan.Config.Check
import SchemaPlan.Proofs.FirstMention
import SchemaPlan.Proofs.NameMap

/-!
# What a configuration holds

A configuration that is read from settings holds the trimmed output directory, the names listed
under the models key, the import specifier and, for exactly these names, what is set for each
(`Config.ofSettings_eq_ok`, `Config.overrides?_ofSettings`).
-/

set_option autoImplicit false
set_option relaxedAutoImplicit false

namespace SchemaPlan

namespace Settings

/-- The text under a key without the blanks around it; empty where there is no text. -/
def trimmedText (settings : Settings) (key : String) : String :=
  match settings.get? key with
  | some (.text text) => Text.trim text
  | _ => ""

theorem trimmedText_of_text {settings : Settings} {key text : String}
    (h : settings.get? key = some (.text text)) : settings.trimmedText key = Text.trim text := by
  rw [trimmedText, h]

theorem trimmedText_of_not_text {settings : Settings} {key : String} {setting : Setting}
    (h : settings.get? key = some setting) (hsetting : ∀ text, setting = .text text → False) :
    settings.trimmedText key = "" := by
  rw [trimmedText, h]
  cases setting with
  | text value => exact (hsetting value rfl).elim
  | _ => rfl

/-- The names under the models key, each once and in order of first mention. -/
def listedModels (settings : Settings) : List String :=
  (((settings.get? modelsKey).bind Setting.entries?).getD []).eraseDups

/-- No model is listed twice. -/
theorem nodup_listedModels (settings : Settings) : settings.listedModels.Nodup :=
  nodup_eraseDups _

end Settings

/-- Where two steps succeed, the first does and the second goes on from its value. -/
theorem exists_ok_of_bind_eq_ok {ε α β : Type} {result : Except ε α} {next : α → Except ε β}
    {value : β} (h : (result >>= next) = .ok value) :
    ∃ first, result = .ok first ∧ next first = .ok value := by
  cases result with
  | error fault => cases h
  | ok first => exact ⟨first, rfl, h⟩

/-- What follows a step matters only for the values that the step can have. -/
theorem bind_congr_of_ok {ε α β : Type} {result : Except ε α} {next other : α → Except ε β}
    (h : ∀ value, result = .ok value → next value = other value) :
    (result >>= next) = (result >>= other) := by
  cases result with
  | error fault => rfl
  | ok value => exact h value rfl

variable {settings : Settings} {schemaPath : String}

/-! ### Single keys -/

/-- The output directory is the trimmed text under its key. -/
theorem readOutput_eq_ok {output : String} (h : readOutput settings = .ok output) :
    output = settings.trimmedText outputKey := by
  unfold readOutput at h
  split at h
  · cases h
  · next path hpath =>
    split at h
    · cases h
      exact (Settings.trimmedText_of_text hpath).symm
    · cases h
  · cases h

/-- The models are the listed ones. -/
theorem readModels_eq_ok {models : List String} (h : readModels settings = .ok models) :
    models = settings.listedModels := by
  unfold readModels at h
  split at h
  · cases h
  · next setting hsetting =>
    split at h
    · cases h
    · next entries hentries =>
      split at h
      · cases h
      · cases h
        rw [Settings.listedModels, hsetting, Option.bind_some, hentries, Option.getD_some]

/-! ### Override keys -/

/-- The overrides of a model are read aspect by aspect; reading the fields cannot fail. -/
theorem readOverrides_eq_bind (model : String) :
    readOverrides settings model = (do
      let strategy ← readStrategy settings model
      let paginated ← readPagination settings model
      return { select := readSelect settings model, strategy, paginated }) := by
  unfold readOverrides
  cases readStrategy settings model with
  | error fault => rfl
  | ok strategy => cases readPagination settings model <;> rfl

theorem readAllOverrides_cons (model : String) (rest : List String) :
    readAllOverrides settings (model :: rest) = (do
      let overrides ← readOverrides settings model
      let others ← readAllOverrides settings rest
      return (model, overrides) :: others) := by
  rw [readAllOverrides]
  cases readOverrides settings model with
  | error fault => rfl
  | ok overrides => cases readAllOverrides settings rest <;> rfl

/-- The fields set for a model are those that are read under its key. -/
theorem select_of_readOverrides {model : String} {overrides : Overrides}
    (h : readOverrides settings model = .ok overrides) :
    overrides.select = readSelect settings model := by
  rw [readOverrides_eq_bind] at h
  obtain ⟨strategy, -, h⟩ := exists_ok_of_bind_eq_ok h
  obtain ⟨paginated, -, h⟩ := exists_ok_of_bind_eq_ok h
  cases h
  rfl

/-- The entries are for the models, in their order, and hold what is set for each. -/
theorem readAllOverrides_eq_ok {models : List String} {entries : List (String × Overrides)}
    (h : readAllOverrides settings models = .ok entries) :
    entries.map (·.1) = models ∧
      ∀ entry ∈ entries, readOverrides settings entry.1 = .ok entry.2 := by
  induction models generalizing entries with
  | nil =>
    cases h
    simp
  | cons model rest ih =>
    rw [readAllOverrides_cons] at h
    obtain ⟨overrides, hoverrides, h⟩ := exists_ok_of_bind_eq_ok h
    obtain ⟨others, hothers, h⟩ := exists_ok_of_bind_eq_ok h
    cases h
    obtain ⟨hnames, hrest⟩ := ih hothers
    exact ⟨by rw [List.map_cons, hnames], List.forall_mem_cons.2 ⟨hoverrides, hrest⟩⟩

/-! ### All keys -/

namespace Config

variable {config : Config}

/-- The parts of a configuration are what is read under the keys for them. -/
theorem ofSettings_eq_ok (h : ofSettings settings schemaPath = .ok config) :
    config.output = settings.trimmedText outputKey ∧ config.models = settings.listedModels ∧
      readImport settings schemaPath config.output = .ok config.importPath ∧
      ∃ entries, readAllOverrides settings config.models = .ok entries ∧
        config.overrides = NameMap.ofList entries := by
  obtain ⟨output, houtput, h⟩ := exists_ok_of_bind_eq_ok h
  obtain ⟨models, hmodels, h⟩ := exists_ok_of_bind_eq_ok h
  obtain ⟨importPath, himport, h⟩ := exists_ok_of_bind_eq_ok h
  obtain ⟨entries, hentries, h⟩ := exists_ok_of_bind_eq_ok h
  cases h
  exact ⟨readOutput_eq_ok houtput, readModels_eq_ok hmodels, himport, entries, hentries, rfl⟩

/-- Every configured model has overrides, which are those that are read for it. -/
theorem overrides?_ofSettings (h : ofSettings settings schemaPath = .ok config) {model : String}
    (hmodel : model ∈ config.models) :
    ∃ overrides, config.overrides? model = some overrides ∧
      readOverrides settings model = .ok overrides := by
  obtain ⟨-, -, -, entries, hentries, hmap⟩ := ofSettings_eq_ok h
  obtain ⟨hnames, hread⟩ := readAllOverrides_eq_ok hentries
  rw [overrides?, hmap, NameMap.get?_ofList]
  obtain ⟨entry, hentry, rfl⟩ := List.mem_map.1 (hnames ▸ hmodel)
  obtain ⟨overrides, hoverrides, hmem⟩ := exists_lookup_reverse_of_mem hentry
  exact ⟨overrides, hoverrides, hread _ hmem⟩

end Config

end SchemaPlan
