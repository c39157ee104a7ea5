import SchemaPlan.Plan
import SchemaPlan.Proofs.Config.Reading
import SchemaPlan.Proofs.Projection.Level

/-!
# Plans are complete

Planning passes over a configured model that the schema does not declare. A configuration that has
been checked against the schema has none (`Config.mem_names_of_check`), so a plan has a part for
each configured model and no others (`Plan.models_ofConfig`, `Plan.model?_ofConfig`), and what it
tells about a model is what the settings and the schema say (`Plan.isComplete_of_prepare`).
-/

set_option autoImplicit false
set_option relaxedAutoImplicit false

namespace SchemaPlan

/-- The plan follows the configuration that the settings describe: it has a part for each
configured model and no others, and every part is that of its model. -/
structure Plan.IsComplete (plan : Plan) (schema : Schema) (settings : Settings)
    (schemaPath : String) : Prop where
  config : Config.ofSettings settings schemaPath = .ok plan.config
  models : plan.models.map (·.model) = plan.config.models
  declared : ∀ name ∈ plan.config.models, name ∈ schema.names
  isSome_model? : ∀ name, (plan.model? name).isSome ↔ name ∈ plan.config.models
  isSome_projection? : ∀ name, (plan.projection? name).isSome ↔ name ∈ plan.config.models
  isSome_overrides? : ∀ name, (plan.overrides? name).isSome ↔ name ∈ plan.config.models
  isSome_analysis? : ∀ name, (plan.analysis? name).isSome ↔ name ∈ schema.names
  /-- What is set for a configured model is what has been read from the settings. -/
  overrides : ∀ name ∈ plan.config.models, ∃ overrides,
    readOverrides settings name = .ok overrides ∧
      plan.config.overrides? name = some overrides ∧ plan.overrides? name = some overrides
  rooted : ∀ part ∈ plan.models, part.projection.model = part.model
  /-- Where no fields are set for queries, they fetch the plain fields of the model. -/
  plain : ∀ name ∈ plan.config.models, plan.config.selectedFields? name = none →
    ∀ model, schema.model? name = some model → (model.fields.map (·.name)).Nodup →
      plan.projection? name = some ⟨name, model.plainNames, [], []⟩

variable {schema : Schema} {settings : Settings} {schemaPath : String} {config : Config}
  {name : String}

/-! ### Configurations that fit a schema -/

namespace Config

/-- A configuration that passes the check has declared models alone. -/
theorem mem_names_of_check {schemaNames : List String} (h : config.check schemaNames = .ok ())
    (hname : name ∈ config.models) : name ∈ schemaNames := by
  by_contra hmissing
  have hundeclared : name ∈ config.undeclared schemaNames := by
    rw [undeclared, List.mem_eraseDups, List.mem_filter]
    exact ⟨hname, by simpa using hmissing⟩
  unfold check at h
  split at h
  · next hnil =>
    rw [hnil] at hundeclared
    cases hundeclared
  · cases h

/-- A configuration that fits a schema is read from the settings and has declared models alone. -/
theorem ofSettingsFor_eq_ok (h : ofSettingsFor schema settings schemaPath = .ok config) :
    ofSettings settings schemaPath = .ok config ∧ ∀ name ∈ config.models, name ∈ schema.names := by
  obtain ⟨first, hfirst, h⟩ := exists_ok_of_bind_eq_ok h
  obtain ⟨⟨⟩, hcheck, h⟩ := exists_ok_of_bind_eq_ok h
  cases h
  exact ⟨hfirst, fun name hname ↦ mem_names_of_check hcheck hname⟩

/-! ### The part for one model -/

/-- The analyses are those of the declared models. -/
theorem isSome_get?_analyses : (schema.analyses.get? name).isSome ↔ name ∈ schema.names := by
  rw [Schema.analyses, NameMap.get?_ofList, List.lookup_isSome_iff, Schema.names]
  simp [@eq_comm String name]

variable {part : ModelPlan}

/-- The part of a plan for a model has the name, its overrides and its projection. -/
theorem planModel?_eq_some (h : config.planModel? schema name = some part) :
    part.model = name ∧ part.overrides = (config.overrides? name).getD {} ∧
      ∃ model, schema.model? name = some model ∧ part.projection =
        (config.synthesis schema).projectRoot name (config.rootSelection model name) := by
  unfold planModel? at h
  split at h
  · next model analysis hmodel hanalysis =>
    obtain rfl := Option.some.inj h
    exact ⟨rfl, rfl, model, hmodel, rfl⟩
  · cases h

/-- There is a part for every declared model. -/
theorem exists_planModel? (config : Config) (hname : name ∈ schema.names) :
    ∃ part, config.planModel? schema name = some part := by
  obtain ⟨model, hmodel⟩ := Option.isSome_iff_exists.1 (Schema.isSome_model?_iff.2 hname)
  obtain ⟨analysis, hanalysis⟩ := Option.isSome_iff_exists.1 (isSome_get?_analyses.2 hname)
  rw [planModel?, hmodel, hanalysis]
  exact ⟨_, rfl⟩

end Config

/-! ### Whole plans -/

namespace Plan

section OfConfig

variable (hdeclared : ∀ name ∈ config.models, name ∈ schema.names)
include hdeclared

/-- The parts of a plan are in the order of the configured models. -/
theorem models_ofConfig : (ofConfig schema config).models.map (·.model) = config.models := by
  have hpart : ∀ name ∈ config.models,
      (config.planModel? schema name).map (·.model) = some name := by
    intro name hname
    obtain ⟨part, hpart⟩ := config.exists_planModel? (hdeclared name hname)
    rw [hpart, Option.map_some, (Config.planModel?_eq_some hpart).1]
  rw [ofConfig, List.map_filterMap, List.filterMap_congr hpart, List.filterMap_some]

/-- A plan has a part for the configured models and no others. -/
theorem model?_ofConfig (name : String) : (ofConfig schema config).model? name =
    if name ∈ config.models then config.planModel? schema name else none := by
  have hwanted : ∀ other ∈ config.models,
      (config.planModel? schema other).any (·.model == name) = (other == name) := by
    intro other hother
    obtain ⟨part, hpart⟩ := config.exists_planModel? (hdeclared other hother)
    rw [hpart, Option.any_some, (Config.planModel?_eq_some hpart).1]
  rw [model?, ofConfig, List.find?_filterMap]
  by_cases hname : name ∈ config.models
  · have hfind : config.models.find? (fun other ↦
        (config.planModel? schema other).any (·.model == name)) = some name := by
      refine find?_eq_some_of_unique hname ?_ ?_
      · rw [hwanted name hname]
        exact beq_self_eq_true name
      · intro other hother heq
        rw [hwanted other hother] at heq
        exact beq_iff_eq.1 heq
    rw [if_pos hname, hfind, Option.bind_some]
  · have hfind : config.models.find? (fun other ↦
        (config.planModel? schema other).any (·.model == name)) = none := by
      rw [List.find?_eq_none]
      intro other hother heq
      rw [hwanted other hother] at heq
      exact hname (beq_iff_eq.1 heq ▸ hother)
    rw [if_neg hname, hfind, Option.bind_none]

theorem isSome_model?_ofConfig (name : String) :
    ((ofConfig schema config).model? name).isSome ↔ name ∈ config.models := by
  rw [model?_ofConfig hdeclared]
  by_cases hname : name ∈ config.models
  · obtain ⟨part, hpart⟩ := config.exists_planModel? (hdeclared name hname)
    simp [hname, hpart]
  · simp [hname]

/-- A plan has a part for every configured model that is declared. -/
theorem exists_model?_ofConfig (hname : name ∈ config.models) :
    ∃ part, (ofConfig schema config).model? name = some part ∧
      config.planModel? schema name = some part := by
  obtain ⟨part, hpart⟩ := config.exists_planModel? (hdeclared name hname)
  exact ⟨part, by rw [model?_ofConfig hdeclared, if_pos hname, hpart], hpart⟩

/-- A plan gives the overrides of every configured model. -/
theorem overrides?_ofConfig (hname : name ∈ config.models) :
    (ofConfig schema config).overrides? name = some ((config.overrides? name).getD {}) := by
  obtain ⟨part, hmodel, hpart⟩ := exists_model?_ofConfig hdeclared hname
  rw [Plan.overrides?, hmodel, Option.map_some, (Config.planModel?_eq_some hpart).2.1]

/-- A plan gives the projection of every configured model, from its root selection. -/
theorem projection?_ofConfig (hname : name ∈ config.models) {model : Model}
    (hmodel : schema.model? name = some model) :
    (ofConfig schema config).projection? name =
      some ((config.synthesis schema).projectRoot name (config.rootSelection model name)) := by
  obtain ⟨part, hpart, hplan⟩ := exists_model?_ofConfig hdeclared hname
  obtain ⟨-, -, found, hfound, hprojection⟩ := Config.planModel?_eq_some hplan
  obtain rfl : found = model := Option.some.inj (hfound.symm.trans hmodel)
  rw [projection?, hpart, Option.map_some, hprojection]

end OfConfig

/-- The projection of a part is of the model of the part. -/
theorem projection_model_of_mem {part : ModelPlan} (h : part ∈ (ofConfig schema config).models) :
    part.projection.model = part.model := by
  obtain ⟨name, -, hpart⟩ := List.mem_filterMap.1 h
  obtain ⟨hmodel, -, model, -, hprojection⟩ := Config.planModel?_eq_some hpart
  rw [hprojection, hmodel, Synthesis.projectRoot, Synthesis.project_model]

/-- A plan is made of a configuration that fits the schema. -/
theorem prepare_eq_ok {plan : Plan} (h : prepare schema settings schemaPath = .ok plan) :
    ∃ config, Config.ofSettingsFor schema settings schemaPath = .ok config ∧
      plan = ofConfig schema config := by
  rw [prepare] at h
  cases hconfig : Config.ofSettingsFor schema settings schemaPath with
  | error fault =>
    rw [hconfig] at h
    cases h
  | ok config =>
    rw [hconfig] at h
    cases h
    exact ⟨config, rfl, rfl⟩

/-- A plan that has been prepared is complete, also for a schema in which names repeat. -/
theorem isComplete_of_prepare {plan : Plan} (h : prepare schema settings schemaPath = .ok plan) :
    plan.IsComplete schema settings schemaPath := by
  obtain ⟨config, hconfig, rfl⟩ := prepare_eq_ok h
  obtain ⟨hsettings, hdeclared⟩ := Config.ofSettingsFor_eq_ok hconfig
  have hsome := isSome_model?_ofConfig hdeclared
  constructor
  case config => exact hsettings
  case models => exact models_ofConfig hdeclared
  case declared => exact hdeclared
  case isSome_model? => exact hsome
  case isSome_projection? =>
    intro name
    rw [projection?, Option.isSome_map]
    exact hsome name
  case isSome_overrides? =>
    intro name
    rw [Plan.overrides?, Option.isSome_map]
    exact hsome name
  case isSome_analysis? =>
    intro name
    exact Config.isSome_get?_analyses
  case overrides =>
    intro name hname
    obtain ⟨overrides, hoverrides, hread⟩ := Config.overrides?_ofSettings hsettings hname
    have hplan := overrides?_ofConfig hdeclared hname
    rw [hoverrides, Option.getD_some] at hplan
    exact ⟨overrides, hread, hoverrides, hplan⟩
  case rooted =>
    intro part hpart
    exact projection_model_of_mem hpart
  case plain =>
    intro name hname hselected model hmodel hnodup
    have hroot : config.rootSelection model name = model.plainNames := by
      change config.selectedFields? name = none at hselected
      rw [Config.rootSelection, hselected, Option.getD_none]
    rw [projection?_ofConfig hdeclared hname hmodel, hroot, Synthesis.projectRoot]
    exact congrArg some (Synthesis.project_plainNames hmodel hnodup)

/-- Books with their authors; a second model has the name of the authors. -/
def library : Schema where
  models := [
    { name := "Book"
      fields := [
        { name := "id", type := .int, isId := true },
        { name := "title", type := .string },
        .relation "author" "Author" "AuthorToBook" ["authorId"]] },
    { name := "Author", fields := [{ name := "id", type := .int, isId := true }] },
    { name := "Author", fields := [{ name := "name", type := .string }] }]

/-- Settings for the library, in which a model is listed twice. -/
def librarySettings : Settings := .ofList [
  ("output", .text " generated "),
  ("models", .text "Book, Author, Book"),
  ("bookSelect", .list ["author"]),
  ("authorPagination", .flag true)]

/-- The configuration that the settings for the library describe. -/
def libraryConfig : Config where
  output := "generated"
  importPath := defaultImport
  models := ["Book", "Author"]
  overrides := .ofList [
    ("Book", { select := some (.fields ["author"]) }),
    ("Author", { paginated := true })]

/-- The plan for a library that declares two models of one name, and whose settings list another
twice. -/
theorem isComplete_of_prepare_library :
    prepare library librarySettings "schema.prisma" = .ok (ofConfig library libraryConfig) ∧
      (ofConfig library libraryConfig).IsComplete library librarySettings
        "schema.prisma" := by
  have hconfig : Config.ofSettingsFor library librarySettings "schema.prisma" =
    .ok libraryConfig := rfl
  have hplan : prepare library librarySettings "schema.prisma" =
      .ok (ofConfig library libraryConfig) := by
    rw [prepare, hconfig]
    rfl
  exact ⟨hplan, isComplete_of_prepare hplan⟩

end Plan

end SchemaPlan
