import SchemaPlan.Proofs.Plan.Completeness

/-!
# What the part for a model is made from

Several models of a schema can have one name. The part of a plan for that name takes its selection
and its projection from the first of them (`Schema.model?`) and its analysis from the last
(`Schema.get?_analyses`). So a part describes one model where the name is declared once
(`Plan.parts_of_prepare`), and not in general (`Plan.analysis_ne_of_prepare_directory`).
-/

set_option autoImplicit false
set_option relaxedAutoImplicit false

namespace SchemaPlan

namespace Schema

variable {schema : Schema} {name : String}

/-- The last model that has the name. -/
def lastModel? (schema : Schema) (name : String) : Option Model :=
  schema.models.reverse.find? (·.name == name)

theorem mem_of_lastModel? {model : Model} (h : schema.lastModel? name = some model) :
    model ∈ schema.models ∧ model.name = name := by
  obtain ⟨hmem, hname⟩ := mem_of_find?_name h
  exact ⟨List.mem_reverse.1 hmem, hname⟩

/-- The analysis under a name is that of the last model of the name. -/
theorem get?_analyses (schema : Schema) (name : String) :
    schema.analyses.get? name = (schema.lastModel? name).map Model.analyze := by
  rw [analyses, NameMap.get?_ofList, ← List.map_reverse, lookup_map_entry, lastModel?]

/-- Where names do not repeat, the last model of a name is the first. -/
theorem lastModel?_eq_model? (hnodup : schema.names.Nodup) :
    schema.lastModel? name = schema.model? name := by
  cases hmodel : schema.model? name with
  | none =>
    refine Option.eq_none_iff_forall_ne_some.2 fun last hlast ↦ ?_
    obtain ⟨hmem, rfl⟩ := mem_of_lastModel? hlast
    exact model?_eq_none_iff.1 hmodel (List.mem_map_of_mem hmem)
  | some model =>
    obtain ⟨hmem, rfl⟩ := mem_of_model? hmodel
    refine find?_name_of_nodup ?_ (List.mem_reverse.2 hmem)
    rw [List.map_reverse]
    exact List.nodup_reverse.2 hnodup

/-- Where names do not repeat, the analysis under a name is that of its model. -/
theorem get?_analyses_of_nodup (hnodup : schema.names.Nodup) :
    schema.analyses.get? name = (schema.model? name).map Model.analyze := by
  rw [get?_analyses, lastModel?_eq_model? hnodup]

end Schema

variable {schema : Schema} {settings : Settings} {schemaPath : String} {config : Config}
  {name : String}

/-- The part for a name has the projection of the first model of the name and the analysis of the
last. -/
theorem Config.planModel?_eq_some_iff {part : ModelPlan} :
    config.planModel? schema name = some part ↔
      ∃ first last, schema.model? name = some first ∧ schema.lastModel? name = some last ∧
        part = {
          model := name
          analysis := last.analyze
          overrides := (config.overrides? name).getD {}
          projection :=
            (config.synthesis schema).projectRoot name (config.rootSelection first name) } := by
  rw [planModel?, schema.get?_analyses]
  cases schema.model? name with
  | none => simp
  | some first => cases schema.lastModel? name <;> simp [eq_comm]

namespace Plan

/-- The part for a configured model has the projection of the first model of its name and the
analysis of the last. The two are one where no other model has the name. -/
theorem parts_of_prepare {plan : Plan} (h : prepare schema settings schemaPath = .ok plan)
    (hname : name ∈ plan.config.models) :
    ∃ part first last, plan.model? name = some part ∧
      schema.model? name = some first ∧ schema.lastModel? name = some last ∧
      part.analysis = last.analyze ∧
      part.projection = (plan.config.synthesis schema).projectRoot name
        ((plan.config.selectedFields? name).getD first.plainNames) ∧
      ((∀ model ∈ schema.models, model.name = name → model = first) →
        part.analysis = first.analyze) := by
  obtain ⟨config, hconfig, rfl⟩ := prepare_eq_ok h
  obtain ⟨-, hdeclared⟩ := Config.ofSettingsFor_eq_ok hconfig
  obtain ⟨part, hpart, hplan⟩ := exists_model?_ofConfig hdeclared hname
  obtain ⟨first, last, hfirst, hlast, rfl⟩ := Config.planModel?_eq_some_iff.1 hplan
  refine ⟨_, first, last, hpart, hfirst, hlast, rfl, rfl, fun hunique ↦ ?_⟩
  obtain ⟨hmem, hlastName⟩ := Schema.mem_of_lastModel? hlast
  rw [hunique last hmem hlastName]

/-- Offices have a title. -/
def office : Model where
  name := "Office"
  fields := [{ name := "id", type := .int, isId := true }, { name := "title", type := .string }]

/-- Persons are numbered. -/
def person : Model where
  name := "Person"
  fields := [{ name := "id", type := .int, isId := true }]

/-- A model with the name of the persons. -/
def namesake : Model where
  name := "Person"
  fields := [{ name := "name", type := .string }]

/-- Offices and persons, declared twice. -/
def directory : Schema where
  models := [office, person, namesake]

/-- Settings that list both names of the directory. -/
def directorySettings : Settings := .ofList [
  ("output", .text "generated"),
  ("models", .text "Person, Office"),
  ("officeSelect", .list ["title"])]

/-- The configuration that the settings for the directory describe. -/
def directoryConfig : Config where
  output := "generated"
  importPath := defaultImport
  models := ["Person", "Office"]
  overrides := .ofList [
    ("Person", {}),
    ("Office", { select := some (.fields ["title"]) })]

/-- The settings for the directory make a plan. -/
theorem prepare_directory : prepare directory directorySettings "schema.prisma" =
    .ok (ofConfig directory directoryConfig) := by
  have hconfig : Config.ofSettingsFor directory directorySettings "schema.prisma" =
    .ok directoryConfig := rfl
  rw [prepare, hconfig]
  rfl

/-- Two offices of one name, of which the first is projected and the last is analysed. -/
theorem parts_of_prepare_directory :
    prepare directory directorySettings "schema.prisma" =
        .ok (ofConfig directory directoryConfig) ∧
      "Office" ∈ directoryConfig.models ∧
      ∃ part first last, (ofConfig directory directoryConfig).model? "Office" = some part ∧
        directory.model? "Office" = some first ∧ directory.lastModel? "Office" = some last ∧
        part.analysis = last.analyze ∧
        part.projection = (directoryConfig.synthesis directory).projectRoot "Office"
          ((directoryConfig.selectedFields? "Office").getD first.plainNames) ∧
        part.analysis = first.analyze := by
  have hlisted : "Office" ∈ directoryConfig.models := by decide
  obtain ⟨part, first, last, hpart, hfirst, hlast, hanalysis, hprojection, hone⟩ :=
    parts_of_prepare prepare_directory hlisted
  have hunique : ∀ model ∈ directory.models, model.name = "Office" → model = first := by
    cases hfirst
    simp [directory, person, namesake]
  exact ⟨prepare_directory, hlisted, part, first, last, hpart, hfirst, hlast, hanalysis,
    hprojection, hone hunique⟩

/-- The part for persons fetches what the first of the two models has and analyzes the second. -/
theorem analysis_ne_of_prepare_directory :
    ∃ plan part first, prepare directory directorySettings "schema.prisma" = .ok plan ∧
      "Person" ∈ plan.config.models ∧ plan.model? "Person" = some part ∧
      directory.model? "Person" = some first ∧ part.projection.scalars = first.plainNames ∧
      part.analysis ≠ first.analyze := by
  have hdeclared : ∀ name ∈ directoryConfig.models, name ∈ directory.names := by decide
  have hlisted : "Person" ∈ directoryConfig.models := by decide
  have hpart : (ofConfig directory directoryConfig).model? "Person" = some {
      model := "Person"
      analysis := namesake.analyze
      overrides := {}
      projection := (directoryConfig.synthesis directory).projectRoot "Person"
        person.plainNames } := by
    rw [model?_ofConfig hdeclared, if_pos hlisted]
    rfl
  have hprojection : (directoryConfig.synthesis directory).projectRoot "Person"
      person.plainNames = ⟨"Person", person.plainNames, [], []⟩ :=
    Synthesis.project_plainNames rfl (by decide)
  have hfields : namesake.analyze.fields.map (·.name) ≠ person.analyze.fields.map (·.name) := by
    decide
  have hanalysis : namesake.analyze ≠ person.analyze := fun heq ↦ hfields (by rw [heq])
  exact ⟨_, _, person, prepare_directory, hlisted, hpart, rfl,
    congrArg (·.scalars) hprojection, hanalysis⟩

end Plan

end SchemaPlan
