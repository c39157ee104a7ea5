import SchemaPlan.Proofs.Schema.Names

/-!
# Closed parts of a schema

A schema is a closed part of another if all its models are declared there as well, and none of its
relations leads to a model that only the other declares (`IsClosedPart`). Looking up a model of the
part, or the target of one of its relations, gives the same in both (`IsClosedPart.model?_eq`,
`IsClosedPart.model?_target`). A schema in another order (`isClosedPart_of_perm`) and a schema with
one more model, to which no relation leads (`isClosedPart_insert`), have the old one as a closed
part.
-/

set_option autoImplicit false
set_option relaxedAutoImplicit false

namespace SchemaPlan.Schema

/-- The models of the part are models of the whole, and its relations lead to no others. -/
structure IsClosedPart (part whole : Schema) : Prop where
  nodup_part : part.names.Nodup
  nodup_whole : whole.names.Nodup
  subset : part.models ⊆ whole.models
  closed : ∀ model ∈ part.models, ∀ field ∈ model.fields, ∀ target ∈ field.target?,
    target ∈ whole.names → target ∈ part.names

namespace IsClosedPart

variable {part whole : Schema} {name target : String} {model : Model} {field : Field}

theorem names_subset (h : part.IsClosedPart whole) : part.names ⊆ whole.names :=
  List.map_subset _ h.subset

/-- A model of the whole whose name is in the part is the one that the part has. -/
theorem mem_part (h : part.IsClosedPart whole) (hmodel : model ∈ whole.models)
    (hname : model.name ∈ part.names) : model ∈ part.models := by
  obtain ⟨other, hother, hsame⟩ := List.mem_map.1 hname
  obtain rfl : other = model :=
    List.inj_on_of_nodup_map h.nodup_whole (h.subset hother) hmodel hsame
  exact hother

/-- A name of the part has the same model in the whole. -/
theorem model?_eq (h : part.IsClosedPart whole) (hname : name ∈ part.names) :
    whole.model? name = part.model? name := by
  obtain ⟨model, hmodel, rfl⟩ := List.mem_map.1 hname
  rw [model?_of_mem h.nodup_part hmodel, model?_of_mem h.nodup_whole (h.subset hmodel)]

/-- What a field of the part leads to is the same model in the whole. -/
theorem model?_target (h : part.IsClosedPart whole) (hmodel : model ∈ part.models)
    (hfield : field ∈ model.fields) (htarget : field.target? = some target) :
    whole.model? target = part.model? target := by
  by_cases hname : target ∈ part.names
  · exact h.model?_eq hname
  · have hwhole : target ∉ whole.names := fun hwhole ↦
      hname (h.closed model hmodel field hfield target htarget hwhole)
    rw [model?_eq_none_iff.2 hname, model?_eq_none_iff.2 hwhole]

end IsClosedPart

/-! ### Other orders and further models -/

theorem names_perm {first second : Schema} (h : first.models.Perm second.models) :
    first.names.Perm second.names :=
  h.map _

/-- A schema is a closed part of its models in another order. -/
theorem isClosedPart_of_perm {first second : Schema} (hnodup : first.names.Nodup)
    (h : first.models.Perm second.models) : first.IsClosedPart second where
  nodup_part := hnodup
  nodup_whole := (names_perm h).nodup_iff.1 hnodup
  subset := h.subset
  closed _ _ _ _ _ _ hname := (names_perm h).mem_iff.2 hname

theorem model?_eq_of_perm {first second : Schema} (hnodup : first.names.Nodup)
    (h : first.models.Perm second.models) (name : String) :
    second.model? name = first.model? name := by
  by_cases hname : name ∈ first.names
  · exact (isClosedPart_of_perm hnodup h).model?_eq hname
  · rw [model?_eq_none_iff.2 hname, model?_eq_none_iff]
    exact fun hother ↦ hname ((names_perm h).mem_iff.2 hother)

/-- The schema with one more model, somewhere among the others. -/
def insertAt (before after : List Model) (model : Model) : Schema :=
  ⟨before ++ model :: after⟩

theorem names_insertAt_perm (before after : List Model) (newcomer : Model) :
    (insertAt before after newcomer).names.Perm
      (newcomer.name :: (Schema.mk (before ++ after)).names) :=
  List.perm_middle.map _

/-- A schema is a closed part of itself with one more model that nothing points to. -/
theorem isClosedPart_insert {before after : List Model} {newcomer : Model}
    (hnodup : (Schema.mk (before ++ after)).names.Nodup)
    (hnew : newcomer.name ∉ (Schema.mk (before ++ after)).names)
    (hfree : ∀ model ∈ before ++ after, ∀ field ∈ model.fields,
      field.target? ≠ some newcomer.name) :
    (Schema.mk (before ++ after)).IsClosedPart (insertAt before after newcomer) := by
  have hperm := names_insertAt_perm before after newcomer
  constructor
  case nodup_part => exact hnodup
  case nodup_whole => exact hperm.nodup_iff.2 (List.nodup_cons.2 ⟨hnew, hnodup⟩)
  case subset =>
    intro model hmodel
    exact List.perm_middle.symm.subset (List.mem_cons_of_mem newcomer hmodel)
  case closed =>
    intro model hmodel field hfield target htarget hname
    rcases List.mem_cons.1 (hperm.mem_iff.1 hname) with rfl | hname
    · exact absurd htarget (hfree model hmodel field hfield)
    · exact hname

end SchemaPlan.Schema
