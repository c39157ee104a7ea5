import SchemaPlan.Config.FromSettings

/-!
# Checking a configuration against a schema

Every configured model has to be declared, and no select override may be malformed. All undeclared
models are named at once; of malformed overrides the first counts.
-/

set_option autoImplicit false
set_option relaxedAutoImplicit false

namespace SchemaPlan

namespace Config

/-- The configured models that the schema does not declare, each once. -/
def undeclared (config : Config) (schemaNames : List String) : List String :=
  (config.models.filter fun name ↦ !schemaNames.contains name).eraseDups

/-- The fault of a malformed select override of the model. -/
def malformedSelect? (config : Config) (model : String) : Option Fault :=
  match (config.overrides? model).bind (·.select) with
  | some (.malformed found) =>
    some (.configuration (Aspect.select.key model) (.fieldNamesExpected found))
  | _ => none

/-- Fails unless the configuration fits a schema that declares these names. -/
def check (config : Config) (schemaNames : List String) : Except Fault Unit :=
  match config.undeclared schemaNames with
  | [] =>
    match config.models.findSome? config.malformedSelect? with
    | some fault => .error fault
    | none => .ok ()
  | names => .error (.unknownModels names)

end Config

end SchemaPlan
