import Mathlib.Data.List.Perm.Basic
import SchemaPlan.Proofs.Relations.Related
import SchemaPlan.Proofs.Schema.Part

/-!
# The graph of a closed part

A field of a closed part places the same edges in the graph of the part and in the graph of the
whole (`IsClosedPart.edgeAt?_eq`). So the models of the part own the same edges in both graphs
(`IsClosedPart.owns_graph_eq`) and are related to each other in both or in neither
(`IsClosedPart.isRelated_graph_eq`), whatever else points at them in the whole. In another order of
the models the lists of a graph are permuted at most (`edgesAt_perm`).
-/

set_option autoImplicit false
set_option relaxedAutoImplicit false

namespace SchemaPlan.Schema

namespace IsClosedPart

variable {part whole : Schema} {name first second : String} {model : Model} {field : Field}

/-! ### The edges of one field -/

/-- A field of a closed part has the same other end in the whole. -/
theorem pairOf?_eq (h : part.IsClosedPart whole) (hmodel : model ∈ part.models)
    (hfield : field ∈ model.fields) : whole.pairOf? field = part.pairOf? field := by
  rw [pairOf?, pairOf?]
  cases htarget : field.target? with
  | none => rfl
  | some target =>
    rw [Option.bind_some, Option.bind_some, pairingField?, pairingField?,
      h.model?_target hmodel hfield htarget]

/-- A field of a closed part places the same edges in the whole. -/
theorem edgeAt?_eq (h : part.IsClosedPart whole) (hmodel : model ∈ part.models)
    (hfield : field ∈ model.fields) (name : String) (side : Side) :
    whole.edgeAt? name side model field = part.edgeAt? name side model field := by
  rw [edgeAt?, edgeAt?]
  cases htarget : field.target? with
  | none => rfl
  | some target =>
    have hlookup := h.model?_target hmodel hfield htarget
    have hpair : whole.pairingField? target field = part.pairingField? target field := by
      rw [pairingField?, pairingField?, hlookup]
    have hdeclared : whole.declares target = part.declares target := by
      rw [declares, declares, hlookup]
    rw [Option.bind_some, Option.bind_some, hpair, hdeclared]

/-! ### What the graphs tell of a model -/

/-- A model of a closed part owns the same edges in the whole. -/
theorem owns_graph_eq (h : part.IsClosedPart whole) (hname : name ∈ part.names) :
    whole.graph.owns name = part.graph.owns name := by
  obtain ⟨model, hmodel, rfl⟩ := List.mem_map.1 hname
  rw [owns_graph, owns_graph, edgesAt_owns h.nodup_whole (h.subset hmodel),
    edgesAt_owns h.nodup_part hmodel]
  refine List.flatMap_congr fun field hfield ↦ ?_
  rw [h.edgeAt?_eq hmodel hfield]

/-- The fields of a model of a closed part lead to the same models in the whole. -/
theorem relatesBy_iff (h : part.IsClosedPart whole) (hfirst : first ∈ part.names)
    {kind kind' : Field → Prop}
    (hkind : ∀ model ∈ part.models, ∀ field ∈ model.fields, kind field ↔ kind' field) :
    whole.RelatesBy kind first second ↔ part.RelatesBy kind' first second := by
  constructor
  · rintro ⟨model, hmodel, rfl, field, hfield, htarget, hheld⟩
    have hpart := h.mem_part hmodel hfirst
    exact ⟨model, hpart, rfl, field, hfield, htarget, (hkind model hpart field hfield).1 hheld⟩
  · rintro ⟨model, hmodel, rfl, field, hfield, htarget, hheld⟩
    exact ⟨model, h.subset hmodel, rfl, field, hfield, htarget,
      (hkind model hmodel field hfield).2 hheld⟩

/-- A field of a closed part is listed when it is in the whole. -/
theorem lists_iff (h : part.IsClosedPart whole) (hmodel : model ∈ part.models)
    (hfield : field ∈ model.fields) : whole.Lists field ↔ part.Lists field := by
  rw [Lists, Lists, h.pairOf?_eq hmodel hfield]

/-- The models of a closed part are related when they are in the whole. -/
theorem isRelated_graph_eq (h : part.IsClosedPart whole) (hfirst : first ∈ part.names)
    (hsecond : second ∈ part.names) :
    whole.graph.isRelated first second = part.graph.isRelated first second := by
  rw [Bool.eq_iff_iff, isRelated_graph_iff (h.names_subset hfirst), isRelated_graph_iff hfirst]
  have howns : whole.RelatesBy (·.isOwning) first second ↔
      part.RelatesBy (·.isOwning) first second :=
    h.relatesBy_iff hfirst fun _ _ _ _ ↦ Iff.rfl
  have hlists : whole.RelatesBy whole.Lists second first ↔
      part.RelatesBy part.Lists second first :=
    h.relatesBy_iff hsecond fun _ hmodel _ hfield ↦ h.lists_iff hmodel hfield
  exact or_congr howns hlists

end IsClosedPart

/-! ### Other orders -/

section Order

variable {first second : Schema} (hnodup : first.names.Nodup)
  (hperm : first.models.Perm second.models)
include hnodup hperm

/-- The order of the models does not matter to which edges are on a side of a model. -/
theorem edgesAt_perm (name : String) (side : Side) :
    (first.edgesAt name side).Perm (second.edgesAt name side) := by
  have hpart := isClosedPart_of_perm hnodup hperm
  rw [edgesAt_eq, edgesAt_eq]
  refine hperm.flatMap fun model hmodel ↦ List.Perm.of_eq ?_
  refine List.flatMap_congr fun field hfield ↦ ?_
  rw [hpart.edgeAt?_eq hmodel hfield]

/-- The order of the models does not matter to the edges that a model owns. -/
theorem owns_graph_eq_of_perm (name : String) :
    first.graph.owns name = second.graph.owns name := by
  have hpart := isClosedPart_of_perm hnodup hperm
  by_cases hname : name ∈ first.names
  · exact (hpart.owns_graph_eq hname).symm
  · have hother : name ∉ second.names := fun h ↦ hname ((names_perm hperm).mem_iff.2 h)
    rw [owns_graph, owns_graph, edgesAt_of_not_mem hname, edgesAt_of_not_mem hother]

/-- The order of the models matters only to the order of the edges that point to a model. -/
theorem referencedBy_graph_perm (name : String) :
    (first.graph.referencedBy name).Perm (second.graph.referencedBy name) := by
  rw [referencedBy_graph, referencedBy_graph]
  exact edgesAt_perm hnodup hperm name .referencedBy

/-- The order of the models does not matter to which are related. -/
theorem related?_graph_eq_of_perm (name : String) :
    first.graph.related? name = second.graph.related? name := by
  have hiff : name ∈ first.names ↔ name ∈ second.names := (names_perm hperm).mem_iff
  rw [Graph.related?, Graph.related?, model?_graph, model?_graph]
  by_cases hname : name ∈ first.names
  · rw [if_pos hname, if_pos (hiff.1 hname), Option.map_some, Option.map_some]
    refine congrArg some (NameSet.ofList_eq_of_perm ?_)
    exact ((edgesAt_perm hnodup hperm name .owns).map _).append
      ((edgesAt_perm hnodup hperm name .referencedBy).map _)
  · rw [if_neg hname, if_neg fun h ↦ hname (hiff.2 h)]

end Order

end SchemaPlan.Schema
