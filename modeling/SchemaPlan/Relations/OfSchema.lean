import SchemaPlan.Relations.Graph
import SchemaPlan.Schema.Basic

/-!
# The relation graph of a schema

An owning field is listed with its own model and, turned round, with the model it points to. A field
that does not own its relation is listed with the model it points to, unless the field at the other
end owns the relation and so stands for it already. Nothing is listed with a model that the schema
does not declare.
-/

set_option autoImplicit false
set_option relaxedAutoImplicit false

namespace SchemaPlan

/-- The list of a model in which an edge stands. -/
inductive Side
  | owns
  | referencedBy
deriving DecidableEq

/-- An edge and where it stands. -/
structure Placement where
  model : String
  side : Side
  edge : Edge
deriving DecidableEq

/-- The relation field of the model at the other end that shares the relation name of `field`. Its
name differs, so that a field of a model related to itself is not its own other end. -/
def Model.pairingField? (related : Model) (field : Field) : Option Field :=
  match field.relationName with
  | none => none
  | some relation =>
    related.relationFields.find? fun other ↦
      other.relationName == some relation && other.name != field.name

/-- The cardinality under which a field that does not own its relation is listed with its target. -/
def Field.pointingCardinality (field : Field) : Cardinality :=
  if field.isList then .manyToOne else .oneToOne

namespace Schema

/-- The field at the other end of a relation field. -/
def pairingField? (schema : Schema) (target : String) (field : Field) : Option Field :=
  (schema.model? target).bind (·.pairingField? field)

/-- Where the edges of a relation field of `model` stand. -/
def placementsOf (schema : Schema) (model : Model) (field : Field) : List Placement :=
  match field.target? with
  | none => []
  | some target =>
    let pair := schema.pairingField? target field
    let edge (cardinality : Cardinality) (isOwning : Bool) : Edge :=
      { source := model.name, field := field.name, target, cardinality, isOwning,
        backReference := pair.map (·.name) }
    if field.isOwning then
      let cardinality := Cardinality.classify true field.isList
      ⟨model.name, .owns, edge cardinality true⟩ ::
        (if schema.declares target then [⟨target, .referencedBy, edge cardinality.inverse false⟩]
        else [])
    else if schema.declares target && !pair.any (·.isOwning) then
      [⟨target, .referencedBy, edge field.pointingCardinality false⟩]
    else []

/-- Where all edges stand, in the order of the fields. -/
def placements (schema : Schema) : List Placement :=
  schema.models.flatMap fun model ↦ model.relationFields.flatMap (schema.placementsOf model)

/-- The edges on one side of a model. -/
def edgesAt (schema : Schema) (name : String) (side : Side) : List Edge :=
  (schema.placements.filter fun placement ↦
    placement.model == name && placement.side == side).map (·.edge)

/-- The relations of a model. -/
def relationsOf (schema : Schema) (name : String) : ModelRelations :=
  let owns := schema.edgesAt name .owns
  let referencedBy := schema.edgesAt name .referencedBy
  { owns, referencedBy,
    related := .ofList (owns.map (·.target) ++ referencedBy.map (·.source)) }

/-- The relation graph of a schema. -/
def graph (schema : Schema) : Graph := ⟨NameMap.tabulate schema.names schema.relationsOf⟩

/-- A relation field that points to a model the schema does not declare. -/
structure Dangling where
  model : String
  field : String
  target : String
deriving DecidableEq

/-- The relation fields that point nowhere, in the order of the fields. -/
def dangling (schema : Schema) : List Dangling :=
  schema.models.flatMap fun model ↦ model.fields.filterMap fun field ↦
    match field.target? with
    | some target =>
      if schema.declares target then none else some ⟨model.name, field.name, target⟩
    | none => none

end Schema

end SchemaPlan
