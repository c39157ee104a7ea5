import SchemaPlan.NameMap
import SchemaPlan.Schema.Cardinality

/-!
# Relation graphs

For every model, the relations that it owns, those that point at it, and the models at their other
ends.
-/

set_option autoImplicit false
set_option relaxedAutoImplicit false

namespace SchemaPlan

open Json

/-- One relation field as it appears in one of the lists of a graph. -/
structure Edge where
  /-- The model that declares the field. -/
  source : String
  field : String
  /-- The model that the field points to. -/
  target : String
  /-- The cardinality as seen from the model in whose list the edge is. -/
  cardinality : Cardinality
  /-- The edge is in the list of the model that owns the relation. -/
  isOwning : Bool
  /-- The field at the other end. -/
  backReference : Option String
deriving DecidableEq

instance : JsonForm Edge where
  toJson edge := .ofMembers [
    ("source_model", toJson edge.source),
    ("field_name", toJson edge.field),
    ("related_model", toJson edge.target),
    ("cardinality", toJson edge.cardinality),
    ("is_owning", toJson edge.isOwning),
    ("back_reference_field_name", toJson edge.backReference)]
  ofJson? value := do
    let record ← Record.ofValue? ["source_model", "field_name", "related_model", "cardinality",
      "is_owning", "back_reference_field_name"] value
    return {
      source := ← record.field? "source_model"
      field := ← record.field? "field_name"
      target := ← record.field? "related_model"
      cardinality := ← record.field? "cardinality"
      isOwning := ← record.field? "is_owning"
      backReference := ← record.optionalField? "back_reference_field_name" }

/-- The relations of one model. -/
structure ModelRelations where
  owns : List Edge
  referencedBy : List Edge
  /-- The models related in either direction. -/
  related : NameSet
deriving DecidableEq

instance : JsonForm ModelRelations where
  toJson relations := .ofMembers [
    ("owns", toJson relations.owns),
    ("referenced_by", toJson relations.referencedBy),
    ("related_models", toJson relations.related)]
  ofJson? value := do
    let record ← Record.ofValue? ["owns", "referenced_by", "related_models"] value
    return {
      owns := ← record.field? "owns"
      referencedBy := ← record.field? "referenced_by"
      related := ← record.field? "related_models" }

/-- The relations of every model. -/
structure Graph where
  models : NameMap ModelRelations
deriving DecidableEq

namespace Graph

/-- The relations of a model. -/
def model? (graph : Graph) (name : String) : Option ModelRelations := graph.models.get? name

/-- The relations that a model owns. -/
def owns (graph : Graph) (name : String) : List Edge :=
  match graph.model? name with
  | some relations => relations.owns
  | none => []

/-- The relations that point at a model. -/
def referencedBy (graph : Graph) (name : String) : List Edge :=
  match graph.model? name with
  | some relations => relations.referencedBy
  | none => []

/-- The models related to a model in either direction. -/
def related? (graph : Graph) (name : String) : Option NameSet := (graph.model? name).map (·.related)

/-- Whether the record of `first` lists `second` as related. -/
def isRelated (graph : Graph) (first second : String) : Bool :=
  (graph.related? first).any (·.contains second)

/-- All edges: model by model, those that it owns and then those that point at it. -/
def edges (graph : Graph) : List Edge :=
  graph.models.values.flatMap fun relations ↦ relations.owns ++ relations.referencedBy

/-- The names of the models, in ascending order. -/
def names (graph : Graph) : List String := graph.models.keys

instance : JsonForm Graph where
  toJson graph := .ofMembers [("models", toJson graph.models)]
  ofJson? value := do
    let record ← Record.ofValue? ["models"] value
    return { models := ← record.field? "models" }

end Graph

end SchemaPlan
