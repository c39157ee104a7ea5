import SchemaPlan.Schema.Basic

/-!
# JSON forms of schemas
-/

set_option autoImplicit false
set_option relaxedAutoImplicit false

namespace SchemaPlan

open Json

/-! ### Types -/

/-- The tag of a type and the name beside it. -/
def FieldType.tag : FieldType → String × Option String
  | .string => ("string", none)
  | .int => ("int", none)
  | .float => ("float", none)
  | .boolean => ("boolean", none)
  | .dateTime => ("date_time", none)
  | .json => ("json", none)
  | .enum name => ("enum", some name)
  | .relation target => ("relation", some target)
  | .other name => ("other", some name)
  | .unsupported nativeType => ("unsupported", some nativeType)

/-- The types without a name. -/
def FieldType.unnamed : List FieldType := [.string, .int, .float, .boolean, .dateTime, .json]

/-- The type with a name beside the tag. -/
def FieldType.named? (tag name : String) : Option FieldType :=
  match tag with
  | "enum" => some (.enum name)
  | "relation" => some (.relation name)
  | "other" => some (.other name)
  | "unsupported" => some (.unsupported name)
  | _ => none

instance : JsonForm FieldType where
  toJson type :=
    match type.tag with
    | (tag, none) => .ofMembers [("kind", .string tag)]
    | (tag, some name) => .ofMembers [("kind", .string tag), ("name", .string name)]
  ofJson? value :=
    match taggedBeside? "kind" "name" value with
    | some (tag, some (.string name)) => FieldType.named? tag name
    | some (tag, none) | some (tag, some .null) =>
      alternative? FieldType.unnamed (·.tag.1) tag
    | _ => none

/-! ### Defaults -/

instance : JsonForm FieldDefault where
  toJson
    | .literal value => .ofMembers [("kind", .string "literal"), ("value", value)]
    | .function name args =>
      .ofMembers [("kind", .string "function"), ("name", .string name), ("args", .array args)]
  ofJson? value :=
    match taggedWithin? "kind" value with
    | some ("literal", fields) => do
      let record ← Record.ofValue? ["value"] fields
      return .literal (← record.field? "value")
    | some ("function", fields) => do
      let record ← Record.ofValue? ["name", "args"] fields
      return .function (← record.field? "name") (← record.defaultedField? "args" [])
    | _ => none

/-! ### Fields, models and schemas -/

/-- The names of the entries of a field in JSON. -/
def Field.entryNames : List String :=
  ["name", "scalar_type", "is_required", "is_list", "is_unique", "is_id", "relation_name",
    "foreign_key_fields", "default", "is_updated_at", "max_length"]

instance : JsonForm Field where
  toJson field := .ofMembers [
    ("name", toJson field.name),
    ("scalar_type", toJson field.type),
    ("is_required", toJson field.isRequired),
    ("is_list", toJson field.isList),
    ("is_unique", toJson field.isUnique),
    ("is_id", toJson field.isId),
    ("relation_name", toJson field.relationName),
    ("foreign_key_fields", toJson field.foreignKeys),
    ("default", toJson field.initial),
    ("is_updated_at", toJson field.isUpdatedAt),
    ("max_length", toJson field.maxLength)]
  ofJson? value := do
    let record ← Record.ofValue? Field.entryNames value
    return {
      name := ← record.field? "name"
      type := ← record.field? "scalar_type"
      isRequired := ← record.field? "is_required"
      isList := ← record.field? "is_list"
      isUnique := ← record.field? "is_unique"
      isId := ← record.field? "is_id"
      relationName := ← record.optionalField? "relation_name"
      foreignKeys := ← record.defaultedField? "foreign_key_fields" []
      initial := ← record.optionalField? "default"
      isUpdatedAt := ← record.field? "is_updated_at"
      maxLength := ← record.optionalField? "max_length" }

instance : JsonForm Model where
  toJson model := .ofMembers [("name", toJson model.name), ("fields", toJson model.fields)]
  ofJson? value := do
    let record ← Record.ofValue? ["name", "fields"] value
    return { name := ← record.field? "name", fields := ← record.field? "fields" }

instance : JsonForm Schema where
  toJson schema := .ofMembers [("models", toJson schema.models)]
  ofJson? value := do
    let record ← Record.ofValue? ["models"] value
    return { models := ← record.field? "models" }

end SchemaPlan
