import SchemaPlan.Config.Check
import SchemaPlan.Trace

/-!
# Plans

A run builds the relation graph, analyzes every model, reads the configuration, checks it against
the schema and synthesizes a projection for each configured model. The plan is what it gives;
`Plan.log` is what it reports, also when it fails.
-/

set_option autoImplicit false
set_option relaxedAutoImplicit false

namespace SchemaPlan

open Json

/-- Everything to generate for one model. -/
structure ModelPlan where
  model : String
  analysis : ModelAnalysis
  overrides : Overrides
  projection : Projection

/-- Everything to generate in one run. -/
structure Plan where
  config : Config
  graph : Graph
  /-- The analyses of all models of the schema. -/
  analyses : NameMap ModelAnalysis
  models : List ModelPlan

/-- The analyses of all models; of models with one name, the last counts. -/
def Schema.analyses (schema : Schema) : NameMap ModelAnalysis :=
  NameMap.ofList (schema.models.map fun model ↦ (model.name, model.analyze))

/-- The names that the queries of a model start with: those configured, or else its plain fields. -/
def Config.rootSelection (config : Config) (model : Model) (name : String) : List String :=
  (config.selectedFields? name).getD model.plainNames

/-- What projections are synthesized from under a configuration. -/
def Config.synthesis (config : Config) (schema : Schema) : Synthesis :=
  { schema, graph := schema.graph, source := config.selectedFields? }

/-- The plan for one configured model, if the schema declares it. -/
def Config.planModel? (config : Config) (schema : Schema) (name : String) : Option ModelPlan :=
  match schema.model? name, schema.analyses.get? name with
  | some model, some analysis => some {
      model := name
      analysis
      overrides := (config.overrides? name).getD {}
      projection := (config.synthesis schema).projectRoot name (config.rootSelection model name) }
  | _, _ => none

/-- The notices of planning one configured model. -/
def Config.planNotices (config : Config) (schema : Schema) (name : String) : List Notice :=
  match schema.model? name with
  | some model => (config.synthesis schema).notices name (config.rootSelection model name)
  | none => []

/-- The configuration that the settings describe, if it fits the schema. -/
def Config.ofSettingsFor (schema : Schema) (settings : Settings) (schemaPath : String) :
    Except Fault Config := do
  let config ← Config.ofSettings settings schemaPath
  config.check schema.names
  return config

namespace Plan

/-- The plan under a configuration. -/
def ofConfig (schema : Schema) (config : Config) : Plan where
  config := config
  graph := schema.graph
  analyses := schema.analyses
  models := config.models.filterMap (config.planModel? schema)

/-- The plan for a schema and settings. -/
def prepare (schema : Schema) (settings : Settings) (schemaPath : String) : Except Fault Plan :=
  (Config.ofSettingsFor schema settings schemaPath).map (ofConfig schema)

/-- The plan for the texts of a data model and of settings. -/
def ofTexts (schemaText settingsText schemaPath : String) : Except Fault Plan :=
  match Schema.ofText? schemaText with
  | none => .error (.data .unreadable)
  | some schema =>
    match Settings.ofText? settingsText with
    | none => .error (.data .unreadable)
    | some settings => prepare schema settings schemaPath

/-- The plan for a configured model. -/
def model? (plan : Plan) (name : String) : Option ModelPlan :=
  plan.models.find? (·.model == name)

/-- The analysis of a model of the schema. -/
def analysis? (plan : Plan) (name : String) : Option ModelAnalysis := plan.analyses.get? name

/-- The projection of a configured model. -/
def projection? (plan : Plan) (name : String) : Option Projection :=
  (plan.model? name).map (·.projection)

/-- What is set for a configured model. -/
def overrides? (plan : Plan) (name : String) : Option Overrides :=
  (plan.model? name).map (·.overrides)

/-! ### Log -/

/-- The events of the stages that cannot fail. -/
def logOfSchema (schema : Schema) : List Event :=
  Event.within (.relationships schema.models.length) schema.graphNotices ++
    Event.within .analysis (schema.models.map (·.analyze.doneNotice))

/-- The events of the last stages. -/
def logOfConfig (schema : Schema) (config : Config) : List Event :=
  let plan := ofConfig schema config
  Event.within (.projection config.models.length)
      (config.models.flatMap (config.planNotices schema)) ++
    [.ofNotice (.planPrepared plan.analyses.size plan.models.length config.output)]

/-- The events of a run. A run that fails reports what it has done before. -/
def log (schema : Schema) (settings : Settings) (schemaPath : String) : List Event :=
  logOfSchema schema ++
    Event.within .config (Config.readNotices settings schema.names schemaPath) ++
    match Config.ofSettingsFor schema settings schemaPath with
    | .ok config => logOfConfig schema config
    | .error _ => []

/-- The events of a run from texts. -/
def logOfTexts (schemaText settingsText schemaPath : String) : List Event :=
  match Schema.ofText? schemaText, Settings.ofText? settingsText with
  | some schema, some settings => log schema settings schemaPath
  | _, _ => []

/-! ### JSON -/

/-- A model's plan in JSON. -/
def writeModel (plan : ModelPlan) : Value := .ofMembers [
  ("model", toJson plan.model),
  ("analysis", toJson plan.analysis),
  ("overrides", toJson plan.overrides),
  ("projection", toJson plan.projection)]

/-- A plan in JSON. -/
def write (plan : Plan) : Value := .ofMembers [
  ("config", toJson plan.config),
  ("graph", toJson plan.graph),
  ("analyses", toJson plan.analyses),
  ("models", .array (plan.models.map writeModel))]

end Plan

end SchemaPlan
