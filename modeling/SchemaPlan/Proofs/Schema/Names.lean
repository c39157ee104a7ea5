import Mathlib.Data.List.Nodup
import SchemaPlan.Schema.Basic

/-!
# Names in a schema

Looking a name up finds something exactly when the name is declared. Where names are distinct, it
finds the one thing that has the name.
-/

set_option autoImplicit false
set_option relaxedAutoImplicit false

namespace SchemaPlan

/-- The only wanted item is the one that is found. -/
theorem find?_eq_some_of_unique {α : Type} {items : List α} {item : α} {wanted : α → Bool}
    (hmem : item ∈ items) (hitem : wanted item)
    (hunique : ∀ other ∈ items, wanted other → other = item) :
    items.find? wanted = some item := by
  have hsome : (items.find? wanted).isSome := List.find?_isSome.2 ⟨item, hmem, hitem⟩
  obtain ⟨other, hother⟩ := Option.isSome_iff_exists.1 hsome
  have heq : other = item :=
    hunique other (List.mem_of_find?_eq_some hother) (List.find?_some hother)
  rw [hother, heq]

/-- Where names do not repeat, an item is found by its name. -/
theorem find?_name_of_nodup {α : Type} {items : List α} {nameOf : α → String} {item : α}
    (hnodup : (items.map nameOf).Nodup) (hmem : item ∈ items) :
    items.find? (nameOf · == nameOf item) = some item := by
  refine find?_eq_some_of_unique hmem (beq_self_eq_true _) fun other hother heq ↦ ?_
  exact List.inj_on_of_nodup_map hnodup hother hmem (beq_iff_eq.1 heq)

theorem mem_of_find?_name {α : Type} {items : List α} {nameOf : α → String} {name : String}
    {item : α} (h : items.find? (nameOf · == name) = some item) :
    item ∈ items ∧ nameOf item = name :=
  ⟨List.mem_of_find?_eq_some h, by simpa using List.find?_some h⟩

theorem Model.mem_of_field? {model : Model} {field : Field} {name : String}
    (h : model.field? name = some field) : field ∈ model.fields ∧ field.name = name :=
  mem_of_find?_name h

/-- Where names do not repeat, a field is found by its name. -/
theorem Model.field?_of_mem {model : Model} {field : Field}
    (hnodup : (model.fields.map (·.name)).Nodup) (hfield : field ∈ model.fields) :
    model.field? field.name = some field :=
  find?_name_of_nodup hnodup hfield

namespace Schema

variable {schema : Schema} {name : String}

theorem mem_of_model? {model : Model} (h : schema.model? name = some model) :
    model ∈ schema.models ∧ model.name = name :=
  mem_of_find?_name h

/-- A model is found by a name exactly when the name is declared. -/
theorem isSome_model?_iff : (schema.model? name).isSome ↔ name ∈ schema.names := by
  simp [model?, names]

theorem model?_eq_none_iff : schema.model? name = none ↔ name ∉ schema.names := by
  rw [← isSome_model?_iff, Option.not_isSome_iff_eq_none]

/-- Where names do not repeat, a model is found by its name. -/
theorem model?_of_mem {model : Model} (hnodup : schema.names.Nodup)
    (hmodel : model ∈ schema.models) : schema.model? model.name = some model :=
  find?_name_of_nodup hnodup hmodel

theorem declares_iff : schema.declares name ↔ name ∈ schema.names := isSome_model?_iff

/-- No two models have one name, nor have two fields of a model. -/
structure HasDistinctNames (schema : Schema) : Prop where
  models : schema.names.Nodup
  fields : ∀ model ∈ schema.models, (model.fields.map (·.name)).Nodup

end Schema

end SchemaPlan
