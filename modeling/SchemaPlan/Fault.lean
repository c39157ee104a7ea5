import SchemaPlan.Config.Basic

/-!
# Faults

Why a run fails: a key of the configuration is wrong, models are missing from the schema, or the
host's data cannot be read. Every fault has its message.
-/

set_option autoImplicit false
set_option relaxedAutoImplicit false

namespace SchemaPlan

/-- What is wrong with a configuration key. -/
inductive Complaint
  | missing
  | pathExpected (found : Shape)
  | entriesExpected (found : Shape)
  | noModels
  | textExpected (found : Shape)
  /-- The import cannot be rebased onto the output directory. -/
  | notRebasable (spec schemaPath output : String)
  | unknownStrategy (text : String)
  | strategyExpected (found : Shape)
  | unknownFlag (text : String)
  | flagExpected (found : Shape)
  | fieldNamesExpected (found : String)
  /-- A reason in the words of the host. -/
  | stated (reason : String)
deriving DecidableEq

/-- The reason in words. -/
def Complaint.message : Complaint → String
  | .missing => "missing required key"
  | .pathExpected found => "expected a non-empty path string, found " ++ found.name
  | .entriesExpected found => "expected a list or comma-delimited string, found " ++ found.name
  | .noModels => "must name at least one model"
  | .textExpected found => "expected a non-empty string, found " ++ found.name
  | .notRebasable spec schemaPath output =>
    "cannot rebase " ++ spec ++ " from " ++ schemaPath ++ " onto " ++ output ++
      " without the working directory"
  | .unknownStrategy text => "'" ++ text ++ "' is not one of " ++ Strategy.spellings
  | .strategyExpected found =>
    "expected one of " ++ Strategy.spellings ++ ", found " ++ found.name
  | .unknownFlag text => "expected a boolean, found '" ++ text ++ "'"
  | .flagExpected found => "expected a boolean, found " ++ found.name
  | .fieldNamesExpected found => "expected a list of field names, found " ++ found
  | .stated reason => reason

/-- What is wrong with the host's data. -/
inductive DataFault
  /-- Not JSON, or not of the expected form. -/
  | unreadable
  | unknownCardinality (text : String)
  /-- A reason in the words of the host. -/
  | stated (reason : String)
deriving DecidableEq

/-- The reason in words. -/
def DataFault.message : DataFault → String
  | .unreadable => "unreadable"
  | .unknownCardinality text => "unknown cardinality: " ++ text
  | .stated reason => reason

/-- Why a run fails. -/
inductive Fault
  | configuration (key : String) (complaint : Complaint)
  | unknownModels (names : List String)
  | data (fault : DataFault)
deriving DecidableEq

namespace Fault

/-- The message of a fault. -/
def message : Fault → String
  | .configuration key complaint =>
    "configuration error for key '" ++ key ++ "': " ++ complaint.message
  | .unknownModels names => "models not found in schema: " ++ String.intercalate ", " names
  | .data fault => "invalid host metadata: " ++ fault.message

/-- The configuration key at fault. -/
def key? : Fault → Option String
  | .configuration key _ => some key
  | _ => none

end Fault

/-- The cardinality of a name, or the fault of there being none. -/
def Cardinality.ofText (text : String) : Except Fault Cardinality :=
  match Cardinality.ofName? text with
  | some cardinality => .ok cardinality
  | none => .error (.data (.unknownCardinality text))

end SchemaPlan
