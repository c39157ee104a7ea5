import SchemaPlan.Analysis.Rule
import SchemaPlan.Schema.Basic

/-!
# Analysis of a model

What generated code has to know about a model, found from the model alone.
-/

set_option autoImplicit false
set_option relaxedAutoImplicit false

namespace SchemaPlan

open Json

/-! ### Fields -/

/-- What generated code has to know about a field. -/
structure FieldAnalysis where
  name : String
  isRelation : Bool
  isRequired : Bool
  /-- A relation field of the same model lists this field as a foreign key. -/
  isForeignKey : Bool
  target : Option String
  defaultKind : DefaultKind
  defaultExpression : Option String
  timestampRole : Option TimestampRole
  isAutoGenerated : Bool
  needsPlaceholder : Bool
  placeholder : Placeholder
deriving DecidableEq

/-- The analysis of a field in a model with these foreign keys. -/
def Field.analyze (foreignKeys : List String) (field : Field) : FieldAnalysis where
  name := field.name
  isRelation := field.isRelation
  isRequired := field.isRequired
  isForeignKey := !field.isRelation && foreignKeys.contains field.name
  target := field.target?
  defaultKind := field.defaultKind
  defaultExpression := field.defaultExpression?
  timestampRole := field.timestampRole?
  isAutoGenerated := field.isAutoGenerated
  needsPlaceholder := field.needsPlaceholder
  placeholder := field.placeholder

instance : JsonForm FieldAnalysis where
  toJson field := .ofMembers [
    ("name", toJson field.name),
    ("is_relation", toJson field.isRelation),
    ("is_required", toJson field.isRequired),
    ("is_foreign_key", toJson field.isForeignKey),
    ("related_model", toJson field.target),
    ("default_kind", toJson field.defaultKind),
    ("default_expression", toJson field.defaultExpression),
    ("timestamp_role", toJson field.timestampRole),
    ("is_auto_generated", toJson field.isAutoGenerated),
    ("needs_optimistic_value", toJson field.needsPlaceholder),
    ("optimistic_value", toJson field.placeholder)]
  ofJson? value := do
    let record ← Record.ofValue? ["name", "is_relation", "is_required", "is_foreign_key",
      "related_model", "default_kind", "default_expression", "timestamp_role",
      "is_auto_generated", "needs_optimistic_value", "optimistic_value"] value
    return {
      name := ← record.field? "name"
      isRelation := ← record.field? "is_relation"
      isRequired := ← record.field? "is_required"
      isForeignKey := ← record.field? "is_foreign_key"
      target := ← record.optionalField? "related_model"
      defaultKind := ← record.field? "default_kind"
      defaultExpression := ← record.optionalField? "default_expression"
      timestampRole := ← record.optionalField? "timestamp_role"
      isAutoGenerated := ← record.field? "is_auto_generated"
      needsPlaceholder := ← record.field? "needs_optimistic_value"
      placeholder := ← record.field? "optimistic_value" }

/-! ### Models -/

/-- What generated code has to know about a model. -/
structure ModelAnalysis where
  model : String
  fields : List FieldAnalysis
  required : List String
  optional : List String
  relations : List String
  scalars : List String
  foreignKeys : List String
  unique : List String
  idField : Option String
  rules : List Rule
deriving DecidableEq

namespace ModelAnalysis

/-- The analysis of the first field of the name. -/
def field? (analysis : ModelAnalysis) (name : String) : Option FieldAnalysis :=
  analysis.fields.find? (·.name == name)

/-- The rules of the fields of the name. -/
def rulesFor (analysis : ModelAnalysis) (name : String) : List Rule :=
  analysis.rules.filter (·.field == name)

/-- The fields that need a placeholder, with it. -/
def placeholders (analysis : ModelAnalysis) : List (String × Placeholder) :=
  (analysis.fields.filter (·.needsPlaceholder)).map fun field ↦ (field.name, field.placeholder)

instance : JsonForm ModelAnalysis where
  toJson analysis := .ofMembers [
    ("model", toJson analysis.model),
    ("fields", toJson analysis.fields),
    ("required_fields", toJson analysis.required),
    ("optional_fields", toJson analysis.optional),
    ("relation_fields", toJson analysis.relations),
    ("scalar_fields", toJson analysis.scalars),
    ("foreign_key_fields", toJson analysis.foreignKeys),
    ("unique_fields", toJson analysis.unique),
    ("id_field", toJson analysis.idField),
    ("validation_rules", toJson analysis.rules)]
  ofJson? value := do
    let record ← Record.ofValue? ["model", "fields", "required_fields", "optional_fields",
      "relation_fields", "scalar_fields", "foreign_key_fields", "unique_fields", "id_field",
      "validation_rules"] value
    return {
      model := ← record.field? "model"
      fields := ← record.field? "fields"
      required := ← record.field? "required_fields"
      optional := ← record.field? "optional_fields"
      relations := ← record.field? "relation_fields"
      scalars := ← record.field? "scalar_fields"
      foreignKeys := ← record.field? "foreign_key_fields"
      unique := ← record.field? "unique_fields"
      idField := ← record.optionalField? "id_field"
      rules := ← record.field? "validation_rules" }

end ModelAnalysis

/-- The foreign keys that the relation fields of a model list. -/
def Model.foreignKeys (model : Model) : List String :=
  model.relationFields.flatMap (·.foreignKeys)

/-- The analysis of a model. -/
def Model.analyze (model : Model) : ModelAnalysis :=
  let fields := model.fields.map (Field.analyze model.foreignKeys)
  let namesWhere (keep : FieldAnalysis → Bool) : List String := (fields.filter keep).map (·.name)
  { model := model.name
    fields
    required := namesWhere fun field ↦ !field.isRelation && field.isRequired
    optional := namesWhere fun field ↦ !field.isRelation && !field.isRequired
    relations := namesWhere (·.isRelation)
    scalars := namesWhere fun field ↦ !field.isRelation
    foreignKeys := namesWhere (·.isForeignKey)
    unique := (model.fields.filter (·.isUnique)).map (·.name)
    idField := model.idField?.map (·.name)
    rules := model.fields.flatMap (·.rules) }

end SchemaPlan
