import SchemaPlan.Plan
import SchemaPlan.Proofs.Config.Reading

/-!
# Which settings have an influence

A run reads three fixed keys and the override keys of the listed models. Settings that agree there
give the same plan or the same fault (`Plan.prepare_congr`). An override key is none of the fixed
keys and tells its aspect and, up to case, its model (`Aspect.key_eq_key_iff`), so what is set for a
model has no influence on models of other spellings (`Config.overrides?_congr`). The names that the
schema declares have an influence on notices alone (`Config.run_read`).
`settings_noninterference` puts the three together.
-/

set_option autoImplicit false
set_option relaxedAutoImplicit false

namespace SchemaPlan

/-! ### Keys -/

theorem Aspect.eq_of_getLast?_suffix {aspect other : Aspect}
    (h : aspect.suffix.toList.getLast? = other.suffix.toList.getLast?) : aspect = other := by
  cases aspect <;> cases other <;> first | rfl | exact absurd h (by decide)

/-- A key with the suffix of an aspect has one stem and one aspect. -/
theorem append_suffix_inj {stem text : String} {aspect other : Aspect}
    (h : stem ++ aspect.suffix = text ++ other.suffix) : stem = text ∧ aspect = other := by
  have hlast (front : String) (aspect : Aspect) :
      (front ++ aspect.suffix).toList.getLast? = aspect.suffix.toList.getLast? := by
    rw [String.toList_append, List.getLast?_append_of_ne_nil _ (by cases aspect <;> decide)]
  obtain rfl : aspect = other :=
    Aspect.eq_of_getLast?_suffix (by rw [← hlast stem, h, hlast text])
  exact ⟨(String.append_left_inj aspect.suffix).1 h, rfl⟩

/-- Two override keys are the same when they are of one aspect and their models have one name in
lower case. -/
theorem Aspect.key_eq_key_iff {aspect other : Aspect} {model name : String} :
    aspect.key model = other.key name ↔
      aspect = other ∧ Text.lowercase model = Text.lowercase name := by
  constructor
  · intro h
    obtain ⟨hmodel, haspect⟩ := append_suffix_inj h
    exact ⟨haspect, hmodel⟩
  · rintro ⟨rfl, hmodel⟩
    rw [key, key, overrideKey, overrideKey, hmodel]

/-- The keys that are read whatever models are listed. -/
def fixedKeys : List String := [outputKey, modelsKey, importKey]

/-- No override key is one of the fixed keys. -/
theorem Aspect.key_not_mem_fixedKeys (aspect : Aspect) (model : String) :
    aspect.key model ∉ fixedKeys := by
  have hnone : ∀ key ∈ fixedKeys, Text.stem? aspect.suffix key = none := by
    cases aspect <;> decide
  have hstem : Text.stem? aspect.suffix (aspect.key model) = some (Text.lowercase model) :=
    Text.stem?_eq_some_iff.2 rfl
  intro h
  rw [hnone _ h] at hstem
  cases hstem

/-- The override keys of a model. -/
def overrideKeys (model : String) : List String := Aspect.all.map (·.key model)

theorem Aspect.key_mem_overrideKeys (aspect : Aspect) (model : String) :
    aspect.key model ∈ overrideKeys model :=
  List.mem_map_of_mem (by cases aspect <;> simp [Aspect.all])

theorem fixedKeys_disjoint_overrideKeys (model : String) :
    fixedKeys.Disjoint (overrideKeys model) := by
  intro key hfixed hkey
  obtain ⟨aspect, -, rfl⟩ := List.mem_map.1 hkey
  exact aspect.key_not_mem_fixedKeys model hfixed

/-- Models whose names differ in lower case have no override key in common. -/
theorem overrideKeys_disjoint {model name : String}
    (h : Text.lowercase name ≠ Text.lowercase model) :
    (overrideKeys name).Disjoint (overrideKeys model) := by
  intro key hname hmodel
  obtain ⟨aspect, -, rfl⟩ := List.mem_map.1 hname
  obtain ⟨other, -, hkey⟩ := List.mem_map.1 hmodel
  exact h (Aspect.key_eq_key_iff.1 hkey).2.symm

namespace Settings

/-- The keys that a run reads. -/
def consultedKeys (settings : Settings) : List String :=
  fixedKeys ++ settings.listedModels.flatMap overrideKeys

/-- The settings hold the same under the keys. -/
def AgreeOn (first second : Settings) (keys : List String) : Prop :=
  ∀ key ∈ keys, first.get? key = second.get? key

/-- The settings hold the same under all other keys. -/
def AgreeOff (first second : Settings) (keys : List String) : Prop :=
  ∀ key, key ∉ keys → first.get? key = second.get? key

variable {first second settings : Settings} {keys others : List String} {key : String}

/-- What agrees off some keys agrees on any others. -/
theorem AgreeOff.agreeOn (h : first.AgreeOff second keys) (hothers : others.Disjoint keys) :
    first.AgreeOn second others :=
  fun key hkey ↦ h key fun hmem ↦ hothers hkey hmem

/-- What is set under a key has no say in the others. -/
theorem agreeOn_insert (h : key ∉ keys) (setting : Setting) :
    settings.AgreeOn (settings.insert key setting) keys := by
  intro other hother
  have hne : other ≠ key := fun heq ↦ h (heq ▸ hother)
  rw [NameMap.get?_insert, if_neg hne]

theorem agreeOff_insert (h : key ∈ keys) (setting : Setting) :
    settings.AgreeOff (settings.insert key setting) keys := by
  intro other hother
  have hne : other ≠ key := fun heq ↦ hother (heq ▸ h)
  rw [NameMap.get?_insert, if_neg hne]

end Settings

/-! ### Settings that agree -/

variable {first second : Settings} {schemaPath : String}

theorem listedModels_congr (h : first.get? modelsKey = second.get? modelsKey) :
    first.listedModels = second.listedModels := by
  rw [Settings.listedModels, h, Settings.listedModels]

theorem readOutput_congr (h : first.get? outputKey = second.get? outputKey) :
    readOutput first = readOutput second := by
  rw [readOutput, h, readOutput]

theorem readModels_congr (h : first.get? modelsKey = second.get? modelsKey) :
    readModels first = readModels second := by
  rw [readModels, h, readModels]

theorem readImport_congr (h : first.get? importKey = second.get? importKey) (output : String) :
    readImport first schemaPath output = readImport second schemaPath output := by
  rw [readImport, h, readImport]

theorem readSelect_congr {model : String}
    (h : first.get? (Aspect.select.key model) = second.get? (Aspect.select.key model)) :
    readSelect first model = readSelect second model := by
  rw [readSelect, h, readSelect]

theorem readStrategy_congr {model : String}
    (h : first.get? (Aspect.optimistic.key model) = second.get? (Aspect.optimistic.key model)) :
    readStrategy first model = readStrategy second model := by
  simp only [readStrategy, h]

theorem readPagination_congr {model : String}
    (h : first.get? (Aspect.pagination.key model) = second.get? (Aspect.pagination.key model)) :
    readPagination first model = readPagination second model := by
  simp only [readPagination, h]

/-- The overrides of a model are read from its own keys. -/
theorem readOverrides_congr {model : String} (h : first.AgreeOn second (overrideKeys model)) :
    readOverrides first model = readOverrides second model := by
  have hkey (aspect : Aspect) : first.get? (aspect.key model) = second.get? (aspect.key model) :=
    h _ (aspect.key_mem_overrideKeys model)
  rw [readOverrides, readSelect_congr (hkey .select), readStrategy_congr (hkey .optimistic),
    readPagination_congr (hkey .pagination), readOverrides]

/-- The overrides are read alike when those of every model are. -/
theorem readAllOverrides_congr {models : List String}
    (h : ∀ model ∈ models, readOverrides first model = readOverrides second model) :
    readAllOverrides first models = readAllOverrides second models := by
  induction models with
  | nil => rfl
  | cons model rest ih =>
    obtain ⟨hmodel, hrest⟩ := List.forall_mem_cons.1 h
    rw [readAllOverrides, hmodel, ih hrest, readAllOverrides]

/-- A configuration is read alike when its parts are, the overrides for the listed models alone. -/
theorem Config.ofSettings_eq_of_reads (houtput : readOutput first = readOutput second)
    (hmodels : readModels first = readModels second)
    (himport : ∀ output, readImport first schemaPath output = readImport second schemaPath output)
    (hoverrides : ∀ model ∈ first.listedModels,
      readOverrides first model = readOverrides second model) :
    ofSettings first schemaPath = ofSettings second schemaPath := by
  rw [ofSettings, ofSettings, ← houtput, ← hmodels]
  refine bind_congr fun output ↦ ?_
  refine bind_congr_of_ok fun models hlisted ↦ ?_
  rw [← readModels_eq_ok hlisted] at hoverrides
  rw [himport output, readAllOverrides_congr hoverrides]

/-- A configuration is read from the keys that are consulted. -/
theorem Config.ofSettings_congr (h : first.AgreeOn second first.consultedKeys) :
    ofSettings first schemaPath = ofSettings second schemaPath := by
  obtain ⟨hfixed, hoverrides⟩ := List.forall_mem_append.1 h
  refine ofSettings_eq_of_reads (readOutput_congr (hfixed outputKey (by simp [fixedKeys])))
    (readModels_congr (hfixed modelsKey (by simp [fixedKeys])))
    (readImport_congr (hfixed importKey (by simp [fixedKeys]))) fun model hmodel ↦ ?_
  exact readOverrides_congr fun key hkey ↦
    hoverrides key (List.mem_flatMap.2 ⟨model, hmodel, hkey⟩)

/-- A run reads the keys that are consulted and no others. -/
theorem Plan.prepare_congr (schema : Schema) (h : first.AgreeOn second first.consultedKeys) :
    prepare schema first schemaPath = prepare schema second schemaPath := by
  rw [prepare, Config.ofSettingsFor, Config.ofSettings_congr h, prepare, Config.ofSettingsFor]

/-! ### Models of other spellings -/

/-- What is set for one model has no influence on the models of other spellings. -/
theorem Config.overrides?_congr {model : String} {config other : Config}
    (h : first.AgreeOff second (overrideKeys model))
    (hfirst : ofSettings first schemaPath = .ok config)
    (hsecond : ofSettings second schemaPath = .ok other) :
    other.models = config.models ∧ ∀ name ∈ config.models,
      Text.lowercase name ≠ Text.lowercase model →
        ∃ overrides, config.overrides? name = some overrides ∧
          other.overrides? name = some overrides := by
  have hfixed := h.agreeOn (fixedKeys_disjoint_overrideKeys model)
  have hmodels : other.models = config.models := by
    rw [(ofSettings_eq_ok hsecond).2.1, (ofSettings_eq_ok hfirst).2.1,
      listedModels_congr (hfixed modelsKey (by simp [fixedKeys]))]
  refine ⟨hmodels, fun name hname hspelling ↦ ?_⟩
  obtain ⟨overrides, hoverrides, hread⟩ := overrides?_ofSettings hfirst hname
  obtain ⟨others, hothers, hreadOther⟩ := overrides?_ofSettings hsecond (hmodels ▸ hname)
  rw [← readOverrides_congr (h.agreeOn (overrideKeys_disjoint hspelling)), hread] at hreadOther
  cases hreadOther
  exact ⟨overrides, hoverrides, hothers⟩

/-! ### Names that the schema declares -/

/-- Reading a configuration in one pass. What is noted are the keys that are ignored, once all
others have been read. -/
def Config.read (settings : Settings) (schemaNames : List String) (schemaPath : String) :
    ExceptT Fault (StateM (List Notice)) Config := do
  let output ← ExceptT.mk (pure (readOutput settings))
  let models ← ExceptT.mk (pure (readModels settings))
  let importPath ← ExceptT.mk (pure (readImport settings schemaPath output))
  let overrides ← ExceptT.mk (pure (readAllOverrides settings models))
  modify (· ++ (ignoredKeys settings models schemaNames).map .keyIgnored)
  return { output, importPath, models, overrides := NameMap.ofList overrides }

/-- The reading has the result, and where it succeeds it notes what `notices` tells. -/
def ReadsAs {α : Type} (reading : ExceptT Fault (StateM (List Notice)) α)
    (result : Except Fault α) (notices : α → List Notice) : Prop :=
  ∀ noted, reading.run.run noted = (result, noted ++
    match result with
    | .ok value => notices value
    | .error _ => [])

/-- A step that can fail and notes nothing is followed by what the rest of the reading notes. -/
theorem ReadsAs.bind {α β : Type} (result : Except Fault α)
    {next : α → ExceptT Fault (StateM (List Notice)) β} {rest : α → Except Fault β}
    {notices : β → List Notice} (hnext : ∀ value, ReadsAs (next value) (rest value) notices) :
    ReadsAs (ExceptT.mk (pure result) >>= next) (result >>= rest) notices := by
  intro noted
  cases result with
  | error fault => exact congrArg (Prod.mk (Except.error fault)) (List.append_nil noted).symm
  | ok value => exact hnext value noted

/-- Reading in one pass gives the configuration of the settings, and notes the ignored keys where it
succeeds. -/
theorem Config.readsAs_read (settings : Settings) (schemaNames : List String)
    (schemaPath : String) :
    ReadsAs (Config.read settings schemaNames schemaPath) (ofSettings settings schemaPath)
      fun config ↦ (ignoredKeys settings config.models schemaNames).map .keyIgnored := by
  refine .bind (readOutput settings) fun output ↦ ?_
  refine .bind (readModels settings) fun models ↦ ?_
  refine .bind (readImport settings schemaPath output) fun importPath ↦ ?_
  exact .bind (readAllOverrides settings models) fun overrides noted ↦ rfl

/-- What has been noted before has no say in the configuration, and stays in front of what is
noted. -/
theorem Config.run_read (settings : Settings) (schemaNames : List String) (schemaPath : String)
    (noted : List Notice) :
    (Config.read settings schemaNames schemaPath).run.run noted =
      (ofSettings settings schemaPath, noted ++ readNotices settings schemaNames schemaPath) := by
  rw [readsAs_read settings schemaNames schemaPath noted, readNotices]
  cases ofSettings settings schemaPath <;> rfl

/-! ### All settings and all schemas -/

/-- A run depends on the keys that it reads and on no others, the configuration that is read does
not depend on the names that the schema declares, and what is set for a model changes nothing for
the models of other spellings. -/
theorem settings_noninterference (first second : Settings) (schemaPath : String) :
    (first.AgreeOn second first.consultedKeys →
      ∀ schema, Plan.prepare schema first schemaPath = Plan.prepare schema second schemaPath) ∧
    (∀ schemaNames noted, ((Config.read first schemaNames schemaPath).run.run noted).1 =
      Config.ofSettings first schemaPath) ∧
    ∀ model config other, first.AgreeOff second (overrideKeys model) →
      Config.ofSettings first schemaPath = .ok config →
      Config.ofSettings second schemaPath = .ok other →
        other.models = config.models ∧ ∀ name ∈ config.models,
          Text.lowercase name ≠ Text.lowercase model →
            ∃ overrides, config.overrides? name = some overrides ∧
              other.overrides? name = some overrides := by
  refine ⟨fun h schema ↦ Plan.prepare_congr schema h, ?_, ?_⟩
  · intro schemaNames noted
    rw [Config.run_read]
  · intro model config other h hfirst hsecond
    exact Config.overrides?_congr h hfirst hsecond

/-- Settings for books and their authors. -/
def bookSettings : Settings := .ofList [
  ("output", .text "generated"),
  ("models", .text "Book, Author"),
  ("bookSelect", .list ["title"]),
  ("authorPagination", .flag true)]

/-- The configuration that they describe, with the fields set for the queries of books. -/
def bookConfig (selected : List String) : Config where
  output := "generated"
  importPath := defaultImport
  models := ["Book", "Author"]
  overrides := .ofList [
    ("Book", { select := some (.fields selected) }),
    ("Author", { paginated := true })]

/-- A key that is not consulted is set for books, and then the fields that are selected of them. -/
theorem settings_noninterference_books :
    (∃ other, other ≠ bookSettings ∧ bookSettings.AgreeOn other bookSettings.consultedKeys ∧
      ∀ schema, Plan.prepare schema bookSettings "schema.prisma" =
        Plan.prepare schema other "schema.prisma") ∧
    ∃ other, bookSettings.AgreeOff other (overrideKeys "Book") ∧
      Config.ofSettings bookSettings "schema.prisma" = .ok (bookConfig ["title"]) ∧
      Config.ofSettings other "schema.prisma" = .ok (bookConfig ["id"]) ∧
      "Author" ∈ (bookConfig ["title"]).models ∧
      Text.lowercase "Author" ≠ Text.lowercase "Book" ∧
      ∃ overrides, (bookConfig ["title"]).overrides? "Author" = some overrides ∧
        (bookConfig ["id"]).overrides? "Author" = some overrides := by
  constructor
  · let other := bookSettings.insert "publisherSelect" (.list ["name"])
    have hagree : bookSettings.AgreeOn other bookSettings.consultedKeys :=
      Settings.agreeOn_insert (by decide) _
    exact ⟨other, by decide, hagree,
      (settings_noninterference bookSettings other "schema.prisma").1 hagree⟩
  · let other := bookSettings.insert "bookSelect" (.list ["id"])
    have hagree : bookSettings.AgreeOff other (overrideKeys "Book") :=
      Settings.agreeOff_insert (by decide) _
    have hfirst : Config.ofSettings bookSettings "schema.prisma" =
      .ok (bookConfig ["title"]) := rfl
    have hsecond : Config.ofSettings other "schema.prisma" = .ok (bookConfig ["id"]) := rfl
    have hlisted : "Author" ∈ (bookConfig ["title"]).models := by decide
    have hspelling : Text.lowercase "Author" ≠ Text.lowercase "Book" := by decide
    obtain ⟨-, hothers⟩ := (settings_noninterference bookSettings other "schema.prisma").2.2
      "Book" _ _ hagree hfirst hsecond
    exact ⟨other, hagree, hfirst, hsecond, hlisted, hspelling,
      hothers "Author" hlisted hspelling⟩

end SchemaPlan
