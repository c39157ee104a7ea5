import SchemaPlan.Fault
import SchemaPlan.Import.Rebase
import SchemaPlan.Text.Lowercase

/-!
# Configurations from settings

The keys are `output`, `models` and `importPath`, and for each configured model the three override
keys: its name in lower case with `Select`, `Optimistic` or `Pagination` behind it. All other keys
are ignored; those that would be override keys of a model that is not configured are reported by
`ignoredKeys`.
-/

set_option autoImplicit false
set_option relaxedAutoImplicit false

namespace SchemaPlan

/-! ### Keys -/

/-- The key of the output directory. -/
def outputKey : String := "output"

/-- The key of the configured models. -/
def modelsKey : String := "models"

/-- The key of the import specifier. -/
def importKey : String := "importPath"

/-- What an override key is about. -/
inductive Aspect
  | select
  | optimistic
  | pagination
deriving DecidableEq

/-- All aspects. -/
def Aspect.all : List Aspect := [.select, .optimistic, .pagination]

/-- The end of the override keys of an aspect. -/
def Aspect.suffix : Aspect → String
  | .select => "Select"
  | .optimistic => "Optimistic"
  | .pagination => "Pagination"

/-- The key with the suffix for a model. -/
def overrideKey (model suffix : String) : String := Text.lowercase model ++ suffix

/-- The override key of a model. -/
def Aspect.key (aspect : Aspect) (model : String) : String := overrideKey model aspect.suffix

/-! ### Single keys -/

/-- The output directory. -/
def readOutput (settings : Settings) : Except Fault String :=
  match settings.get? outputKey with
  | none => .error (.configuration outputKey .missing)
  | some (.text path) =>
    if Text.trim path ≠ "" then .ok (Text.trim path)
    else .error (.configuration outputKey (.pathExpected .text))
  | some other => .error (.configuration outputKey (.pathExpected other.shape))

/-- The configured models, each once, in order of first mention. -/
def readModels (settings : Settings) : Except Fault (List String) :=
  match settings.get? modelsKey with
  | none => .error (.configuration modelsKey .missing)
  | some setting =>
    match setting.entries? with
    | none => .error (.configuration modelsKey (.entriesExpected setting.shape))
    | some entries =>
      if entries.isEmpty then .error (.configuration modelsKey .noModels)
      else .ok entries.eraseDups

/-- The import specifier, rebased onto the output directory. -/
def readImport (settings : Settings) (schemaPath output : String) : Except Fault String :=
  match settings.get? importKey with
  | none => .ok defaultImport
  | some (.text text) =>
    let spec := Text.trim text
    if spec ≠ "" then
      match rebaseImport? spec schemaPath output with
      | some rebased => .ok rebased
      | none => .error (.configuration importKey (.notRebasable spec schemaPath output))
    else .error (.configuration importKey (.textExpected .text))
  | some other => .error (.configuration importKey (.textExpected other.shape))

/-! ### Override keys -/

/-- The fields set for the queries of a model. -/
def readSelect (settings : Settings) (model : String) : Option SelectOverride :=
  (settings.get? (Aspect.select.key model)).map fun setting ↦
    match setting.entries? with
    | some names => .fields names
    | none => .malformed setting.shape.name

/-- The strategy set for a model. -/
def readStrategy (settings : Settings) (model : String) : Except Fault Strategy :=
  let key := Aspect.optimistic.key model
  match settings.get? key with
  | none => .ok .merge
  | some (.text text) =>
    match Strategy.ofText? text with
    | some strategy => .ok strategy
    | none => .error (.configuration key (.unknownStrategy text))
  | some other => .error (.configuration key (.strategyExpected other.shape))

/-- Whether lists of a model are paginated. -/
def readPagination (settings : Settings) (model : String) : Except Fault Bool :=
  let key := Aspect.pagination.key model
  match settings.get? key with
  | none => .ok false
  | some (.flag value) => .ok value
  | some (.text text) =>
    if Text.equalsIgnoringAsciiCase (Text.trim text) "true" then .ok true
    else if Text.equalsIgnoringAsciiCase (Text.trim text) "false" then .ok false
    else .error (.configuration key (.unknownFlag text))
  | some other => .error (.configuration key (.flagExpected other.shape))

/-- What is set for a model. -/
def readOverrides (settings : Settings) (model : String) : Except Fault Overrides :=
  match readStrategy settings model with
  | .error fault => .error fault
  | .ok strategy =>
    match readPagination settings model with
    | .error fault => .error fault
    | .ok paginated => .ok { select := readSelect settings model, strategy, paginated }

/-- What is set for each of the models, or the first fault. -/
def readAllOverrides (settings : Settings) :
    List String → Except Fault (List (String × Overrides))
  | [] => .ok []
  | model :: rest =>
    match readOverrides settings model with
    | .error fault => .error fault
    | .ok overrides =>
      match readAllOverrides settings rest with
      | .error fault => .error fault
      | .ok others => .ok ((model, overrides) :: others)

/-! ### All keys -/

/-- The configuration that the settings describe. The keys are read in the order output, models,
import, and then model by model. -/
def Config.ofSettings (settings : Settings) (schemaPath : String) : Except Fault Config := do
  let output ← readOutput settings
  let models ← readModels settings
  let importPath ← readImport settings schemaPath output
  let overrides ← readAllOverrides settings models
  return { output, importPath, models, overrides := NameMap.ofList overrides }

/-- An override key that is ignored, and the model it is about. -/
structure IgnoredKey where
  key : String
  model : String
deriving DecidableEq

/-- The schema's first model that is not configured and has `key` for its override key of the
aspect. -/
def Aspect.ignored? (aspect : Aspect) (configured schemaNames : List String) (key : String) :
    Option IgnoredKey :=
  match Text.stem? aspect.suffix key with
  | none => none
  | some stem =>
    (schemaNames.find? fun name ↦ Text.lowercase name == stem && !configured.contains name).map
      (⟨key, ·⟩)

/-- The override keys of models that the schema declares and the configuration leaves out. -/
def ignoredKeys (settings : Settings) (configured schemaNames : List String) : List IgnoredKey :=
  settings.keys.flatMap fun key ↦ Aspect.all.filterMap (·.ignored? configured schemaNames key)

end SchemaPlan
