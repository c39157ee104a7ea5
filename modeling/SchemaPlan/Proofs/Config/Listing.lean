import SchemaPlan.Proofs.Config.Influence
import SchemaPlan.Proofs.Text.Cut

/-!
# Listed names

Models and the fields set for their queries are listed as a list of texts or as one text with commas
between the names. What is read from either are names without blanks around them, none of them empty
(`Setting.isTidy_of_mem_entries`), and of a list whose items hold no comma the joined text gives the
same names (`Setting.sameEntries_joined`). A configuration keeps the listed models in order of first
mention and sets something for these and no others (`Config.isTidy_ofSettings`), and it does not
matter which of the two ways of listing is taken (`ofSettings_listings`).
-/

set_option autoImplicit false
set_option relaxedAutoImplicit false

namespace SchemaPlan

/-! ### Names without blanks around them -/

/-- A name that a listing can give: not empty, and without blanks at either end. -/
structure Text.IsTidy (text : String) : Prop where
  ne_empty : text ≠ ""
  head : ∀ c, text.toList.head? = some c → Text.isBlank c = false
  last : ∀ c, text.toList.getLast? = some c → Text.isBlank c = false

/-- Trimming leaves a name that a listing can give, or nothing. -/
theorem Text.isTidy_trim {text : String} (h : trim text ≠ "") : IsTidy (trim text) := by
  have hchars : (trim text).toList = trimBlanks text.toList := by rw [trim, String.toList_ofList]
  refine ⟨h, fun c hc ↦ ?_, fun c hc ↦ ?_⟩
  · exact not_isBlank_head_trimBlanks (hchars ▸ hc)
  · exact not_isBlank_getLast_trimBlanks (hchars ▸ hc)

namespace Setting

theorem isTidy_of_mem_tidy {items : List String} {name : String} (h : name ∈ tidy items) :
    Text.IsTidy name := by
  obtain ⟨hmem, hne⟩ := List.mem_filter.1 h
  obtain ⟨item, -, rfl⟩ := List.mem_map.1 hmem
  exact Text.isTidy_trim (of_decide_eq_true hne)

/-- The names that a setting lists have no blanks around them and are not empty. -/
theorem isTidy_of_mem_entries {setting : Setting} {entries : List String} {name : String}
    (h : setting.entries? = some entries) (hname : name ∈ entries) : Text.IsTidy name := by
  cases setting with
  | flag value => cases h
  | text value =>
    cases h
    exact isTidy_of_mem_tidy hname
  | list items =>
    cases h
    exact isTidy_of_mem_tidy hname

/-! ### Two ways to list names -/

/-- Both settings list the same names. -/
def SameEntries (first second : Setting) : Prop :=
  ∃ entries, first.entries? = some entries ∧ second.entries? = some entries

theorem SameEntries.symm {first second : Setting} (h : first.SameEntries second) :
    second.SameEntries first := by
  obtain ⟨entries, hfirst, hsecond⟩ := h
  exact ⟨entries, hsecond, hfirst⟩

/-- The items of a list in one text, with commas between them. -/
def joined (items : List String) : Setting := .text (String.intercalate "," items)

/-- A list gives the same names as its items in one text with commas between them. -/
theorem sameEntries_joined {items : List String} (h : ∀ item ∈ items, ',' ∉ item.toList) :
    (list items).SameEntries (joined items) := by
  refine ⟨tidy items, rfl, ?_⟩
  cases items with
  | nil => rfl
  | cons first rest =>
    rw [joined, entries?, Text.splitOn_intercalate rfl (List.cons_ne_nil first rest) h]

end Setting

/-! ### Keys that list names -/

/-- The key lists names: it is the key of the models or that of the fields set for a model. -/
def ListsNames (key : String) : Prop := key = modelsKey ∨ ∃ model, key = Aspect.select.key model

namespace ListsNames

variable {key : String}

/-- Of the fixed keys only that of the models lists names. -/
theorem ne_of_mem_fixedKeys (h : ListsNames key) {fixed : String} (hfixed : fixed ∈ fixedKeys)
    (hmodels : fixed ≠ modelsKey) : fixed ≠ key := by
  rcases h with rfl | ⟨model, rfl⟩
  · exact hmodels
  · rintro rfl
    exact Aspect.select.key_not_mem_fixedKeys model hfixed

/-- Of the override keys of a model only that of the fields lists names. -/
theorem ne_key (h : ListsNames key) (aspect : Aspect) (haspect : aspect ≠ .select)
    (model : String) : aspect.key model ≠ key := by
  rcases h with rfl | ⟨other, rfl⟩
  · exact fun heq ↦ aspect.key_not_mem_fixedKeys model (by simp [heq, fixedKeys])
  · exact fun heq ↦ haspect (Aspect.key_eq_key_iff.1 heq).1

end ListsNames

section Relisting

variable {settings : Settings} {key schemaPath : String} {setting other : Setting}
  (hkey : settings.get? key = some setting) (hsame : setting.SameEntries other)
include hkey hsame

/-- The models are read alike when a setting gives way to one with the same names. -/
theorem readModels_insert : readModels (settings.insert key other) = readModels settings := by
  obtain ⟨entries, hentries, hothers⟩ := hsame
  rw [readModels, readModels, NameMap.get?_insert]
  by_cases heq : modelsKey = key
  · rw [if_pos heq, heq, hkey]
    simp only [hentries, hothers]
  · rw [if_neg heq]

/-- The fields set for a model are read alike when a setting gives way to one with the same
names. -/
theorem readSelect_insert (model : String) :
    readSelect (settings.insert key other) model = readSelect settings model := by
  obtain ⟨entries, hentries, hothers⟩ := hsame
  rw [readSelect, readSelect, NameMap.get?_insert]
  by_cases heq : Aspect.select.key model = key
  · rw [if_pos heq, heq, hkey]
    simp only [hentries, hothers, Option.map_some]
  · rw [if_neg heq]

/-- A configuration is read alike when a setting gives way to one with the same names. -/
theorem Config.ofSettings_insert (hlists : ListsNames key) :
    ofSettings (settings.insert key other) schemaPath = ofSettings settings schemaPath := by
  have hget {name : String} (hne : name ≠ key) :
      (settings.insert key other).get? name = settings.get? name := by
    rw [NameMap.get?_insert, if_neg hne]
  have houtput : outputKey ≠ key := hlists.ne_of_mem_fixedKeys (by decide) (by decide)
  have himport : importKey ≠ key := hlists.ne_of_mem_fixedKeys (by decide) (by decide)
  refine ofSettings_eq_of_reads (readOutput_congr (hget houtput)) (readModels_insert hkey hsame)
    (readImport_congr (hget himport)) fun model _ ↦ ?_
  have hstrategy := readStrategy_congr (hget (hlists.ne_key .optimistic (by decide) model))
  have hpagination := readPagination_congr (hget (hlists.ne_key .pagination (by decide) model))
  rw [readOverrides, readSelect_insert hkey hsame, hstrategy, hpagination, readOverrides]

end Relisting

/-! ### What a configuration lists -/

variable {settings : Settings} {schemaPath : String}

/-- The models are the names that are listed for them, each once. -/
theorem exists_entries_of_readModels {models : List String} (h : readModels settings = .ok models) :
    ∃ setting entries, settings.get? modelsKey = some setting ∧
      setting.entries? = some entries ∧ entries ≠ [] ∧ models = entries.eraseDups := by
  unfold readModels at h
  split at h
  · cases h
  · next setting hsetting =>
    split at h
    · cases h
    · next entries hentries =>
      split at h
      · cases h
      · next hempty =>
        cases h
        exact ⟨setting, entries, hsetting, hentries, by simpa using hempty, rfl⟩

namespace Config

/-- What the names in a configuration are like; `listed` are the names under the key of the models
as they stand there. -/
structure IsTidy (config : Config) (listed : List String) : Prop where
  models_ne_nil : config.models ≠ []
  models_nodup : config.models.Nodup
  models_isTidy : ∀ model ∈ config.models, Text.IsTidy model
  mem_models_iff : ∀ name, name ∈ config.models ↔ name ∈ listed
  models_inFirstOrder : InFirstOrder listed config.models
  mem_keys_iff : ∀ name, name ∈ config.overrides.keys ↔ name ∈ config.models
  fields_isTidy : ∀ model overrides names, config.overrides? model = some overrides →
    overrides.select = some (.fields names) → ∀ name ∈ names, Text.IsTidy name

theorem isTidy_of_readSelect {model : String} {names : List String}
    (h : readSelect settings model = some (.fields names)) : ∀ name ∈ names, Text.IsTidy name := by
  obtain ⟨setting, -, hselect⟩ := Option.map_eq_some_iff.1 h
  split at hselect
  · next entries hentries =>
    cases hselect
    exact fun name hname ↦ Setting.isTidy_of_mem_entries hentries hname
  · cases hselect

variable {config : Config} (h : ofSettings settings schemaPath = .ok config)
include h

/-- The models of a configuration are those that are read. -/
theorem readModels_ofSettings : readModels settings = .ok config.models := by
  obtain ⟨output, -, h⟩ := exists_ok_of_bind_eq_ok h
  obtain ⟨models, hmodels, h⟩ := exists_ok_of_bind_eq_ok h
  obtain ⟨importPath, -, h⟩ := exists_ok_of_bind_eq_ok h
  obtain ⟨entries, -, h⟩ := exists_ok_of_bind_eq_ok h
  cases h
  exact hmodels

/-- The models that have overrides are those that are configured. -/
theorem mem_keys_overrides_iff (name : String) :
    name ∈ config.overrides.keys ↔ name ∈ config.models := by
  constructor
  · intro hname
    obtain ⟨-, -, -, entries, hentries, hmap⟩ := ofSettings_eq_ok h
    rw [hmap] at hname
    obtain ⟨entry, hentry, rfl⟩ := List.mem_map.1 hname
    rw [← (readAllOverrides_eq_ok hentries).1]
    exact List.mem_map_of_mem (mem_sortEntries hentry)
  · intro hname
    obtain ⟨overrides, hoverrides, -⟩ := overrides?_ofSettings h hname
    exact NameMap.mem_keys.2 (Option.isSome_iff_exists.2 ⟨overrides, hoverrides⟩)

/-- The fields set for a model have no blanks around them and are not empty. -/
theorem isTidy_of_mem_fields {model : String} {overrides : Overrides} {names : List String}
    (hoverrides : config.overrides? model = some overrides)
    (hselect : overrides.select = some (.fields names)) : ∀ name ∈ names, Text.IsTidy name := by
  have hmodel : model ∈ config.models := by
    rw [← mem_keys_overrides_iff h, NameMap.mem_keys]
    exact Option.isSome_iff_exists.2 ⟨overrides, hoverrides⟩
  obtain ⟨other, hother, hread⟩ := overrides?_ofSettings h hmodel
  obtain rfl : other = overrides := Option.some.inj (hother.symm.trans hoverrides)
  exact isTidy_of_readSelect ((select_of_readOverrides hread).symm.trans hselect)

/-- The names in a configuration are what the names that are listed for the models make of them. -/
theorem isTidy_ofSettings :
    ∃ setting listed, settings.get? modelsKey = some setting ∧
      setting.entries? = some listed ∧ config.IsTidy listed := by
  obtain ⟨setting, listed, hsetting, hlisted, hne, hmodels⟩ :=
    exists_entries_of_readModels (readModels_ofSettings h)
  have hmem (name : String) : name ∈ config.models ↔ name ∈ listed := by
    rw [hmodels, List.mem_eraseDups]
  refine ⟨setting, listed, hsetting, hlisted, ?_⟩
  constructor
  case models_ne_nil => rwa [hmodels, Ne, eraseDups_eq_nil_iff]
  case models_nodup => exact hmodels ▸ nodup_eraseDups listed
  case models_isTidy =>
    exact fun model hmodel ↦ Setting.isTidy_of_mem_entries hlisted ((hmem model).1 hmodel)
  case mem_models_iff => exact hmem
  case models_inFirstOrder => exact hmodels ▸ inFirstOrder_eraseDups listed
  case mem_keys_iff => exact mem_keys_overrides_iff h
  case fields_isTidy =>
    exact fun model overrides names hoverrides hselect ↦ isTidy_of_mem_fields h hoverrides hselect

end Config

/-- A configuration that is read lists tidy names, the models in order of first mention and each
with what is set for it. Where names are listed, be it those of the models or of the fields set for
a model, a list whose items hold no comma and the text of the items joined by commas can take each
other's place: the configuration or the fault stays the same. -/
theorem ofSettings_listings (settings : Settings) (schemaPath : String) :
    (∀ config, Config.ofSettings settings schemaPath = .ok config →
      ∃ setting listed, settings.get? modelsKey = some setting ∧
        setting.entries? = some listed ∧ config.IsTidy listed) ∧
    ∀ key, ListsNames key → ∀ items : List String, (∀ item ∈ items, ',' ∉ item.toList) →
      (settings.get? key = some (.list items) →
        Config.ofSettings (settings.insert key (.joined items)) schemaPath =
          Config.ofSettings settings schemaPath) ∧
      (settings.get? key = some (.joined items) →
        Config.ofSettings (settings.insert key (.list items)) schemaPath =
          Config.ofSettings settings schemaPath) := by
  refine ⟨fun config h ↦ Config.isTidy_ofSettings h, fun key hlists items hitems ↦ ?_⟩
  have hsame := Setting.sameEntries_joined hitems
  constructor
  · intro hkey
    exact Config.ofSettings_insert hkey hsame hlists
  · intro hkey
    exact Config.ofSettings_insert hkey hsame.symm hlists

/-- Settings for articles and their tags, with blanks around some names and a name that repeats. -/
def articleSettings : Settings := .ofList [
  ("output", .text "generated"),
  ("models", .list [" Article", "Tag\u00A0", "", "Article"]),
  ("articleSelect", .text "id,\u2003title,,")]

/-- The configuration that they describe. -/
def articleConfig : Config where
  output := "generated"
  importPath := defaultImport
  models := ["Article", "Tag"]
  overrides := .ofList [
    ("Article", { select := some (.fields ["id", "title"]) }),
    ("Tag", {})]

/-- The names for articles are listed in one text, and with other blanks around them. -/
theorem ofSettings_listings_article :
    Config.ofSettings articleSettings "schema.prisma" = .ok articleConfig ∧
      (∃ setting listed, articleSettings.get? modelsKey = some setting ∧
        setting.entries? = some listed ∧ articleConfig.IsTidy listed) ∧
      Config.ofSettings (articleSettings.insert "models" (.text " Article,Tag\u00A0,,Article"))
        "schema.prisma" = .ok articleConfig ∧
      Config.ofSettings
        (articleSettings.insert "articleSelect" (.list ["id", "\u2003title", "", ""]))
        "schema.prisma" = .ok articleConfig := by
  obtain ⟨htidy, hrelisted⟩ := ofSettings_listings articleSettings "schema.prisma"
  have hread : Config.ofSettings articleSettings "schema.prisma" = .ok articleConfig := rfl
  have hmodels := (hrelisted "models" (.inl rfl) [" Article", "Tag\u00A0", "", "Article"]
    (by decide)).1 rfl
  have hselect := (hrelisted "articleSelect" (.inr ⟨"Article", by decide⟩)
    ["id", "\u2003title", "", ""] (by decide)).2 rfl
  exact ⟨hread, htidy _ hread, hmodels.trans hread, hselect.trans hread⟩

end SchemaPlan
