import SchemaPlan.Config.Setting

/-!
# Configuration

The typed configuration of a run: where to write, where to import the data client from, for which
models to generate, and what is set for each of them.
-/

set_option autoImplicit false
set_option relaxedAutoImplicit false

namespace SchemaPlan

open Json

/-! ### Strategies -/

/-- How an optimistic update meets the answer of the server. -/
inductive Strategy
  /-- The answer is merged into the optimistic record. -/
  | merge
  /-- The answer replaces the optimistic record. -/
  | overwrite
  /-- Hand-written code decides. -/
  | manual
deriving DecidableEq

namespace Strategy

/-- All strategies, in canonical order. -/
def all : List Strategy := [.merge, .overwrite, .manual]

/-- The spelling of a strategy. -/
def name : Strategy → String
  | .merge => "merge"
  | .overwrite => "overwrite"
  | .manual => "manual"

/-- The strategy that a text spells, blanks around it aside. -/
def ofText? (text : String) : Option Strategy := alternative? all name (Text.trim text)

/-- All spellings, for messages. -/
def spellings : String := String.intercalate "|" (all.map name)

instance : JsonForm Strategy where
  toJson strategy := .string strategy.name
  ofJson? := readUnit? all name

end Strategy

/-! ### Overrides -/

/-- The fields set for the queries of a model. -/
inductive SelectOverride
  | fields (names : List String)
  /-- The setting had no entries; `found` names what it was. -/
  | malformed (found : String)
deriving DecidableEq

instance : JsonForm SelectOverride where
  toJson
    | .fields names => .ofMembers [("fields", toJson names)]
    | .malformed found => .ofMembers [("malformed", .ofMembers [("found", toJson found)])]
  ofJson?
    | .object [("fields", names)] => (ofJson? names).map .fields
    | .object [("malformed", .object members)] =>
      ((Record.mk members false).field? "found").map .malformed
    | _ => none

/-- What is set for one model. -/
structure Overrides where
  select : Option SelectOverride := none
  strategy : Strategy := .merge
  paginated : Bool := false
deriving DecidableEq

/-- The fields set for queries, unless the setting is malformed. -/
def Overrides.selectedFields? (overrides : Overrides) : Option (List String) :=
  match overrides.select with
  | some (.fields names) => some names
  | _ => none

instance : JsonForm Overrides where
  toJson overrides := .ofMembers [
    ("select", toJson overrides.select),
    ("optimistic_strategy", toJson overrides.strategy),
    ("pagination_enabled", toJson overrides.paginated)]
  ofJson? value := do
    let record ← Record.ofValue? ["select", "optimistic_strategy", "pagination_enabled"] value
    return {
      select := ← record.optionalField? "select"
      strategy := ← record.field? "optimistic_strategy"
      paginated := ← record.field? "pagination_enabled" }

/-! ### Configurations -/

/-- The configuration of a run. -/
structure Config where
  output : String
  importPath : String
  models : List String
  overrides : NameMap Overrides
deriving DecidableEq

namespace Config

/-- What is set for a model. -/
def overrides? (config : Config) (model : String) : Option Overrides := config.overrides.get? model

/-- Whether code is generated for the model. -/
def includes (config : Config) (model : String) : Bool := config.models.contains model

/-- The fields set for the queries of a model. -/
def selectedFields? (config : Config) (model : String) : Option (List String) :=
  (config.overrides? model).bind Overrides.selectedFields?

instance : JsonForm Config where
  toJson config := .ofMembers [
    ("output", toJson config.output),
    ("data_source_import_path", toJson config.importPath),
    ("models", toJson config.models),
    ("overrides", toJson config.overrides)]
  ofJson? value := do
    let record ← Record.ofValue? ["output", "data_source_import_path", "models", "overrides"] value
    return {
      output := ← record.field? "output"
      importPath := ← record.field? "data_source_import_path"
      models := ← record.field? "models"
      overrides := ← record.field? "overrides" }

end Config

end SchemaPlan
