import SchemaPlan.Schema.Field

/-!
# Models and schemas

A model is a list of fields and a schema a list of models, both in the order of declaration. Names
may repeat; looking a name up gives the first that has it.
-/

set_option autoImplicit false
set_option relaxedAutoImplicit false

namespace SchemaPlan

/-- A model with its fields. -/
structure Model where
  name : String
  fields : List Field

namespace Model

/-- The first field of the name. -/
def field? (model : Model) (name : String) : Option Field := model.fields.find? (·.name == name)

/-- The fields that are relations. -/
def relationFields (model : Model) : List Field := model.fields.filter (·.isRelation)

/-- The fields that a query selects by name alone. -/
def plainFields (model : Model) : List Field := model.fields.filter (·.isPlain)

/-- The names of the fields that a query selects by name alone. -/
def plainNames (model : Model) : List String := model.plainFields.map (·.name)

/-- The first field that identifies the record. -/
def idField? (model : Model) : Option Field := model.fields.find? (·.isId)

end Model

/-- The models of a run. -/
structure Schema where
  models : List Model

namespace Schema

/-- The names of the models. -/
def names (schema : Schema) : List String := schema.models.map (·.name)

/-- The first model of the name. -/
def model? (schema : Schema) (name : String) : Option Model :=
  schema.models.find? (·.name == name)

/-- Whether a model has the name. -/
def declares (schema : Schema) (name : String) : Bool := (schema.model? name).isSome

/-- A model that is found by a name is declared under it. -/
theorem mem_names_of_model? {schema : Schema} {name : String} {model : Model}
    (h : schema.model? name = some model) : name ∈ schema.names := by
  have hname : model.name = name := by simpa using List.find?_some h
  exact List.mem_map.2 ⟨model, List.mem_of_find?_eq_some h, hname⟩

end Schema

end SchemaPlan
