import SchemaPlan.Analysis.Default

/-!
# Placeholders

Until the server answers, the client shows a provisional record. Each field that the user does not
fill has a placeholder there, by the first of these that applies: an identifier gets a temporary
one, a timestamp the current time, a default its spelling or something like what its function would
give, an optional field null, and a required field the zero of its type.
-/

set_option autoImplicit false
set_option relaxedAutoImplicit false

namespace SchemaPlan

open Json

/-! ### Timestamps -/

/-- Which timestamp a field keeps. -/
inductive TimestampRole
  | createdAt
  | updatedAt
deriving DecidableEq

namespace TimestampRole

/-- Both roles. -/
def all : List TimestampRole := [.createdAt, .updatedAt]

/-- The name of a role in JSON. -/
def name : TimestampRole → String
  | .createdAt => "created_at"
  | .updatedAt => "updated_at"

instance : JsonForm TimestampRole where
  toJson role := .string role.name
  ofJson? := readUnit? all name

end TimestampRole

/-- Whether a field of the name keeps the time of creation, whatever its type. -/
def isCreatedAtName (name : String) : Bool := name == "createdAt" || name == "created_at"

/-- The timestamp that a field keeps. The mark of the schema counts before the name. -/
def Field.timestampRole? (field : Field) : Option TimestampRole :=
  if field.isUpdatedAt then some .updatedAt
  else if isCreatedAtName field.name then some .createdAt
  else none

/-! ### Placeholders -/

/-- A provisional value. -/
inductive Placeholder
  | temporaryId
  | currentTimestamp
  | emptyString
  | zero
  | false
  | null
  /-- The spelling of a literal default. -/
  | literal (text : String)
deriving DecidableEq

namespace Placeholder

/-- The placeholder in words. -/
def description : Placeholder → String
  | .temporaryId => "temporary-id"
  | .currentTimestamp => "current-timestamp"
  | .emptyString => "\"\""
  | .zero => "0"
  | .false => "false"
  | .null => "null"
  | .literal text => text

/-- The tag of a placeholder in JSON, and the text beside it. -/
def tag : Placeholder → String × Option String
  | .temporaryId => ("temporary_id", none)
  | .currentTimestamp => ("current_timestamp", none)
  | .emptyString => ("empty_string", none)
  | .zero => ("zero", none)
  | .false => ("false", none)
  | .null => ("null", none)
  | .literal text => ("literal", some text)

/-- The placeholders without a text. -/
def plain : List Placeholder :=
  [.temporaryId, .currentTimestamp, .emptyString, .zero, .false, .null]

instance : JsonForm Placeholder where
  toJson placeholder :=
    match placeholder.tag with
    | (tag, none) => .ofMembers [("kind", .string tag)]
    | (tag, some text) => .ofMembers [("kind", .string tag), ("value", .string text)]
  ofJson? value :=
    match taggedBeside? "kind" "value" value with
    | some ("literal", some (.string text)) => some (.literal text)
    | some (tag, none) | some (tag, some .null) => alternative? plain (·.tag.1) tag
    | _ => none

end Placeholder

/-- The zero of a type: what a required field without a default starts as. -/
def FieldType.zero : FieldType → Placeholder
  | .string => .emptyString
  | .int | .float => .zero
  | .boolean => .false
  | .dateTime => .currentTimestamp
  | .json | .enum _ | .relation _ | .other _ | .unsupported _ => .null

/-- The functions that make identifiers the client cannot foresee. -/
def idFunctions : List String := ["uuid", "cuid", "ulid", "nanoid", "autoincrement"]

/-- The placeholder for the result of a function in a field of the type. -/
def FieldType.resultOf (type : FieldType) (function : String) : Placeholder :=
  if function = "now" then .currentTimestamp
  else if function ∈ idFunctions then .temporaryId
  else
    match type with
    | .dateTime => .currentTimestamp
    | .string => .emptyString
    | _ => .null

namespace Field

/-- The placeholder of a field. -/
def placeholder (field : Field) : Placeholder :=
  if field.isId then .temporaryId
  else if field.timestampRole?.isSome then .currentTimestamp
  else
    match field.initial with
    | some (.function name _) => field.type.resultOf (canonicalName name)
    | some (.literal value) => .literal (printLiteral field.type value)
    | none => if field.isRequired then field.type.zero else .null

/-- Whether the field is filled with its placeholder rather than by the user. -/
def needsPlaceholder (field : Field) : Bool :=
  field.isId || field.timestampRole?.isSome || field.hasDefault

end Field

end SchemaPlan
