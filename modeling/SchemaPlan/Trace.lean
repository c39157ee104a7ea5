import SchemaPlan.Analysis.Basic
import SchemaPlan.Config.FromSettings
import SchemaPlan.Projection.Synthesis
import SchemaPlan.Relations.OfSchema

/-!
# Traces

What a run reports on its way, apart from its result: notices, each within the stages in which it
arises.
-/

set_option autoImplicit false
set_option relaxedAutoImplicit false

namespace SchemaPlan

open Json

/-! ### Notices -/

/-- How important a notice is. -/
inductive Level
  | trace
  | debug
  | info
  | warn
deriving DecidableEq

/-- The name of a level. -/
def Level.name : Level → String
  | .trace => "TRACE"
  | .debug => "DEBUG"
  | .info => "INFO"
  | .warn => "WARN"

/-- Something that a run reports. -/
inductive Notice
  | danglingRelation (relation : Schema.Dangling)
  | graphBuilt (models edges : Nat)
  | modelAnalyzed (model : String) (fields rules : Nat)
  | keyIgnored (ignored : IgnoredKey)
  | keptFlat (name : Synthesis.FlatName)
  | planPrepared (schemaModels generatedModels : Nat) (output : String)
deriving DecidableEq

namespace Notice

/-- The level of a notice. -/
def level : Notice → Level
  | .danglingRelation _ => .warn
  | .graphBuilt _ _ => .debug
  | .modelAnalyzed _ _ _ => .trace
  | .keyIgnored _ => .debug
  | .keptFlat _ => .debug
  | .planPrepared _ _ _ => .info

/-- The words of a notice. -/
def message : Notice → String
  | .danglingRelation _ => "relation targets a model missing from the schema"
  | .graphBuilt _ _ => "relationship graph built"
  | .modelAnalyzed _ _ _ => "model analyzed"
  | .keyIgnored _ => "ignoring override for model not listed in `models`"
  | .keptFlat name =>
    match name.fallback with
    | .unknownField => "unknown field passed through"
    | .targetMissing _ => "related model missing; kept flat"
    | .onPath _ => "model already on path; kept flat"
  | .planPrepared _ _ _ => "generation plan prepared"

/-- What a notice is about. -/
def details : Notice → List (String × Value)
  | .danglingRelation relation =>
    [("model", .string relation.model), ("field", .string relation.field),
      ("related", .string relation.target)]
  | .graphBuilt models edges => [("models", .ofNat models), ("edges", .ofNat edges)]
  | .modelAnalyzed model fields rules =>
    [("model", .string model), ("fields", .ofNat fields), ("rules", .ofNat rules)]
  | .keyIgnored ignored => [("key", .string ignored.key), ("model", .string ignored.model)]
  | .keptFlat name =>
    let place := [("model", Value.string name.model), ("field", .string name.name)]
    match name.fallback with
    | .unknownField => place
    | .targetMissing target | .onPath target => place ++ [("related", .string target)]
  | .planPrepared schemaModels generatedModels output =>
    [("schema_models", .ofNat schemaModels), ("generated_models", .ofNat generatedModels),
      ("output", .string output)]

end Notice

/-! ### Stages -/

/-- A stage of a run. -/
inductive Stage
  | relationships (models : Nat)
  | analysis
  | config
  | projection (models : Nat)
deriving DecidableEq

namespace Stage

/-- The name of a stage. -/
def name : Stage → String
  | .relationships _ => "relationships"
  | .analysis => "analysis"
  | .config => "config"
  | .projection _ => "projection"

/-- What a stage works on. -/
def details : Stage → List (String × Value)
  | .relationships models | .projection models => [("models", .ofNat models)]
  | .analysis | .config => []

end Stage

/-- A notice within the stages around it, the outermost first. -/
structure Event where
  stages : List Stage
  notice : Notice
deriving DecidableEq

namespace Event

/-- The notice outside of any stage. -/
def ofNotice (notice : Notice) : Event := ⟨[], notice⟩

/-- The notices within one stage. -/
def within (stage : Stage) (notices : List Notice) : List Event := notices.map (⟨[stage], ·⟩)

/-- An event in JSON. -/
def write (event : Event) : Value := .ofMembers [
  ("level", .string event.notice.level.name),
  ("message", .string event.notice.message),
  ("fields", .ofMembers event.notice.details),
  ("spans", .array (event.stages.map fun stage ↦
    .ofMembers [("name", .string stage.name), ("fields", .ofMembers stage.details)]))]

end Event

/-! ### Notices of the parts of a run -/

/-- The notices of building the relation graph. -/
def Schema.graphNotices (schema : Schema) : List Notice :=
  schema.dangling.map .danglingRelation ++
    [.graphBuilt schema.graph.models.size schema.graph.edges.length]

/-- The notice of analyzing a model. -/
def ModelAnalysis.doneNotice (analysis : ModelAnalysis) : Notice :=
  .modelAnalyzed analysis.model analysis.fields.length analysis.rules.length

/-- The notices of reading a configuration. They come after the reading has succeeded. -/
def Config.readNotices (settings : Settings) (schemaNames : List String) (schemaPath : String) :
    List Notice :=
  match Config.ofSettings settings schemaPath with
  | .ok config => (ignoredKeys settings config.models schemaNames).map .keyIgnored
  | .error _ => []

/-- The notices of synthesizing a projection. -/
def Synthesis.notices (synthesis : Synthesis) (model : String) (selected : List String) :
    List Notice :=
  (synthesis.flatNamesOfRoot model selected).map .keptFlat

end SchemaPlan
