import Mathlib.Data.List.Basic
import SchemaPlan.Proofs.NameMap
import SchemaPlan.Proofs.Schema.Names
import SchemaPlan.Relations.OfSchema

/-!
# Where the edges of a graph come from

A field places one edge at most on a side of a model (`edgeAt?`), and the lists of a graph hold
these edges in the order of the fields (`owns_graph`, `referencedBy_graph`). Where names are
distinct, the edges of a list that stand for one field are those that this field places
(`filter_edgesAt`).
-/

set_option autoImplicit false
set_option relaxedAutoImplicit false

namespace SchemaPlan

/-- The edge stands for the field of the model. -/
def Edge.standsFor (edge : Edge) (model field : String) : Bool :=
  edge.source == model && edge.field == field

/-- Where keys do not repeat, what is produced for one key alone is produced by its item. -/
theorem flatMap_eq_of_nodup {α β κ : Type} (key : α → κ) {produce : α → List β} {items : List α}
    {item : α} (hnodup : (items.map key).Nodup) (hitem : item ∈ items)
    (hother : ∀ other ∈ items, key other ≠ key item → produce other = []) :
    items.flatMap produce = produce item := by
  induction items with
  | nil => simp at hitem
  | cons first rest ih =>
    obtain ⟨hfirst, hnodup⟩ := List.nodup_cons.1 hnodup
    rw [List.flatMap_cons]
    rcases List.mem_cons.1 hitem with rfl | hitem
    · have hrest : rest.flatMap produce = [] := by
        refine List.flatMap_eq_nil_iff.2 fun other hmem ↦ ?_
        refine hother other (List.mem_cons_of_mem _ hmem) fun heq ↦ hfirst ?_
        exact heq ▸ List.mem_map_of_mem hmem
      rw [hrest, List.append_nil]
    · have hne : key first ≠ key item := fun heq ↦ hfirst (heq ▸ List.mem_map_of_mem hitem)
      rw [hother first List.mem_cons_self hne, List.nil_append]
      exact ih hnodup hitem fun other hmem ↦ hother other (List.mem_cons_of_mem _ hmem)

namespace Schema

variable {schema : Schema}

/-- The edge that a field of a model places on a side of the model `name`. -/
def edgeAt? (schema : Schema) (name : String) (side : Side) (model : Model) (field : Field) :
    Option Edge :=
  field.target?.bind fun target ↦
    let pair := schema.pairingField? target field
    let cardinality := Cardinality.classify field.isOwning field.isList
    match side with
    | .owns =>
      if field.isOwning ∧ model.name = name then
        some ⟨model.name, field.name, target, cardinality, true, pair.map (·.name)⟩
      else none
    | .referencedBy =>
      if target = name ∧ schema.declares target ∧ (field.isOwning ∨ ¬pair.any (·.isOwning)) then
        some ⟨model.name, field.name, target, cardinality.inverse, false, pair.map (·.name)⟩
      else none

/-- An edge of a field that does not own its relation counts from the other end. -/
theorem pointingCardinality_eq {field : Field} (h : field.isOwning = false) :
    field.pointingCardinality = (Cardinality.classify field.isOwning field.isList).inverse := by
  rw [Field.pointingCardinality, h]
  cases field.isList <;> rfl

theorem filter_placementsOf (name : String) (side : Side) (model : Model) (field : Field) :
    ((schema.placementsOf model field).filter fun placement ↦
      placement.model == name && placement.side == side).map (·.edge) =
        (schema.edgeAt? name side model field).toList := by
  rw [placementsOf, edgeAt?]
  cases field.target? with
  | none => rfl
  | some target =>
    cases howning : field.isOwning <;> cases hdeclared : schema.declares target <;>
      cases hpair : (schema.pairingField? target field).any (·.isOwning) <;> cases side <;>
        by_cases hmodel : model.name = name <;> by_cases htarget : target = name <;>
          simp_all [pointingCardinality_eq]

/-- The edges on a side of a model are those that the fields place there, in the order of the
fields. -/
theorem edgesAt_eq (name : String) (side : Side) :
    schema.edgesAt name side = schema.models.flatMap fun model ↦
      model.fields.flatMap fun field ↦ (schema.edgeAt? name side model field).toList := by
  rw [edgesAt, placements, List.filter_flatMap, List.map_flatMap]
  refine List.flatMap_congr fun model _ ↦ ?_
  rw [List.filter_flatMap, List.map_flatMap, Model.relationFields]
  simp only [filter_placementsOf]
  induction model.fields with
  | nil => rfl
  | cons field rest ih =>
    rw [List.flatMap_cons, ← ih, List.filter_cons]
    cases hfield : field.isRelation with
    | true => rfl
    | false =>
      simp [edgeAt?, Field.target?_eq_none_iff.2 hfield]

/-- What an edge tells of the field that it stands for. -/
structure Describes (schema : Schema) (model : Model) (field : Field) (edge : Edge) : Prop where
  source_eq : edge.source = model.name
  field_eq : edge.field = field.name
  target_eq : field.target? = some edge.target
  backReference_eq : edge.backReference = (schema.pairingField? edge.target field).map (·.name)

theorem Describes.mk_eq {model : Model} {field : Field} {edge : Edge}
    (h : schema.Describes model field edge) :
    ⟨model.name, field.name, edge.target, edge.cardinality, edge.isOwning,
      (schema.pairingField? edge.target field).map (·.name)⟩ = edge := by
  rw [← h.source_eq, ← h.field_eq, ← h.backReference_eq]

theorem cardinality?_of_target? {field : Field} {target : String}
    (h : field.target? = some target) :
    field.cardinality? = some (.classify field.isOwning field.isList) := by
  have hrelation : field.isRelation = true := by
    rw [Field.isRelation, FieldType.isRelation]
    exact Option.isSome_iff_exists.2 ⟨target, h⟩
  rw [Field.cardinality?, if_pos hrelation]

section EdgeAt

variable {name : String} {model : Model} {field : Field} {edge : Edge}

/-- A field places an edge on the owning side of its own model when it owns the relation. -/
theorem edgeAt?_owns_eq_some_iff : schema.edgeAt? name .owns model field = some edge ↔
    schema.Describes model field edge ∧ model.name = name ∧ field.isOwning ∧ edge.isOwning ∧
      field.cardinality? = some edge.cardinality := by
  rw [edgeAt?, Option.bind_eq_some_iff]
  constructor
  · rintro ⟨target, htarget, hedge⟩
    obtain ⟨⟨howning, hname⟩, hsome⟩ := Option.ite_none_right_eq_some.1 hedge
    obtain rfl := Option.some.inj hsome
    exact ⟨⟨rfl, rfl, htarget, rfl⟩, hname, howning, rfl, cardinality?_of_target? htarget⟩
  · rintro ⟨hdescribes, hname, howning, hside, hcardinality⟩
    rw [cardinality?_of_target? hdescribes.target_eq, Option.some.injEq] at hcardinality
    refine ⟨edge.target, hdescribes.target_eq,
      Option.ite_none_right_eq_some.2 ⟨⟨howning, hname⟩, ?_⟩⟩
    rw [hcardinality, ← hside, hdescribes.mk_eq]

/-- A field places an edge on the pointed side of its target, if that is declared, when it owns the
relation or the other end does not. -/
theorem edgeAt?_referencedBy_eq_some_iff :
    schema.edgeAt? name .referencedBy model field = some edge ↔
      schema.Describes model field edge ∧ edge.target = name ∧ name ∈ schema.names ∧
        (field.isOwning ∨ ¬(schema.pairingField? name field).any (·.isOwning)) ∧
        edge.isOwning = false ∧
        field.cardinality?.map Cardinality.inverse = some edge.cardinality := by
  rw [edgeAt?, Option.bind_eq_some_iff]
  constructor
  · rintro ⟨target, htarget, hedge⟩
    obtain ⟨⟨rfl, hdeclared, hkept⟩, hsome⟩ := Option.ite_none_right_eq_some.1 hedge
    obtain rfl := Option.some.inj hsome
    refine ⟨⟨rfl, rfl, htarget, rfl⟩, rfl, declares_iff.1 hdeclared, hkept, rfl, ?_⟩
    rw [cardinality?_of_target? htarget, Option.map_some]
  · rintro ⟨hdescribes, rfl, hdeclared, hkept, hside, hcardinality⟩
    rw [cardinality?_of_target? hdescribes.target_eq, Option.map_some,
      Option.some.injEq] at hcardinality
    refine ⟨edge.target, hdescribes.target_eq,
      Option.ite_none_right_eq_some.2 ⟨⟨rfl, declares_iff.2 hdeclared, hkept⟩, ?_⟩⟩
    rw [hcardinality, ← hside, hdescribes.mk_eq]

/-- The edge that a field places describes it. -/
theorem describes_of_edgeAt? {side : Side} (h : schema.edgeAt? name side model field = some edge) :
    schema.Describes model field edge := by
  cases side with
  | owns => exact (edgeAt?_owns_eq_some_iff.1 h).1
  | referencedBy => exact (edgeAt?_referencedBy_eq_some_iff.1 h).1

end EdgeAt

/-- The edges on a side of a model are those that some field places there. -/
theorem mem_edgesAt {name : String} {side : Side} {edge : Edge} :
    edge ∈ schema.edgesAt name side ↔ ∃ model ∈ schema.models, ∃ field ∈ model.fields,
      schema.edgeAt? name side model field = some edge := by
  simp only [edgesAt_eq, List.mem_flatMap, Option.mem_toList]

/-! ### The lists of the graph -/

/-- No edge is on a side of a model that is not declared. -/
theorem edgesAt_of_not_mem {name : String} (hname : name ∉ schema.names) (side : Side) :
    schema.edgesAt name side = [] := by
  refine List.eq_nil_iff_forall_not_mem.2 fun edge hedge ↦ hname ?_
  obtain ⟨model, hmodel, field, -, hplaced⟩ := mem_edgesAt.1 hedge
  cases side with
  | owns =>
    obtain ⟨-, rfl, -⟩ := edgeAt?_owns_eq_some_iff.1 hplaced
    exact List.mem_map_of_mem hmodel
  | referencedBy =>
    obtain ⟨-, -, hdeclared, -⟩ := edgeAt?_referencedBy_eq_some_iff.1 hplaced
    exact hdeclared

/-- The graph has a record for every declared model and no others. -/
theorem model?_graph (name : String) : schema.graph.model? name =
    if name ∈ schema.names then some (schema.relationsOf name) else none :=
  NameMap.get?_tabulate schema.names schema.relationsOf name

theorem mem_names_graph {name : String} : name ∈ schema.graph.names ↔ name ∈ schema.names := by
  have hrecord : name ∈ schema.graph.names ↔ (schema.graph.model? name).isSome := NameMap.mem_keys
  rw [hrecord, model?_graph]
  by_cases hname : name ∈ schema.names <;> simp [hname]

/-- The edges that a model owns are those on its owning side. -/
theorem owns_graph (name : String) : schema.graph.owns name = schema.edgesAt name .owns := by
  rw [Graph.owns, model?_graph]
  by_cases hname : name ∈ schema.names
  · rw [if_pos hname]
    rfl
  · rw [if_neg hname, edgesAt_of_not_mem hname]

/-- The edges that point to a model are those on its pointed side. -/
theorem referencedBy_graph (name : String) :
    schema.graph.referencedBy name = schema.edgesAt name .referencedBy := by
  rw [Graph.referencedBy, model?_graph]
  by_cases hname : name ∈ schema.names
  · rw [if_pos hname]
    rfl
  · rw [if_neg hname, edgesAt_of_not_mem hname]

theorem edges_graph : schema.graph.edges = schema.graph.names.flatMap fun name ↦
    schema.edgesAt name .owns ++ schema.edgesAt name .referencedBy := by
  rw [Graph.edges, Graph.names, NameMap.values, NameMap.keys, List.flatMap_map, List.flatMap_map]
  refine List.flatMap_congr fun entry hentry ↦ ?_
  have hvalue := NameMap.get?_of_mem_entries hentry
  rw [← owns_graph, ← referencedBy_graph, Graph.owns, Graph.referencedBy, Graph.model?, hvalue]

/-- The edges of the graph are those on some side of some model. -/
theorem mem_edges_graph {edge : Edge} :
    edge ∈ schema.graph.edges ↔ ∃ name side, edge ∈ schema.edgesAt name side := by
  rw [edges_graph, List.mem_flatMap]
  constructor
  · rintro ⟨name, -, hedge⟩
    rcases List.mem_append.1 hedge with hedge | hedge
    · exact ⟨name, .owns, hedge⟩
    · exact ⟨name, .referencedBy, hedge⟩
  · rintro ⟨name, side, hedge⟩
    have hname : name ∈ schema.names := by
      by_contra hname
      rw [edgesAt_of_not_mem hname] at hedge
      cases hedge
    refine ⟨name, mem_names_graph.2 hname, List.mem_append.2 ?_⟩
    cases side with
    | owns => exact .inl hedge
    | referencedBy => exact .inr hedge

/-! ### The edges of one field -/

/-- Where names do not repeat, the edges on a side that stand for a field are those it places
there. -/
theorem filter_edgesAt (h : schema.HasDistinctNames) {model : Model} {field : Field}
    (hmodel : model ∈ schema.models) (hfield : field ∈ model.fields) (name : String) (side : Side) :
    (schema.edgesAt name side).filter (·.standsFor model.name field.name) =
      (schema.edgeAt? name side model field).toList := by
  have hfilter (other : Model) (part : Field) :
      (schema.edgeAt? name side other part).toList.filter (·.standsFor model.name field.name) =
        if other.name = model.name ∧ part.name = field.name then
          (schema.edgeAt? name side other part).toList else [] := by
    cases hplaced : schema.edgeAt? name side other part with
    | none => simp
    | some edge =>
      have hdescribes := describes_of_edgeAt? hplaced
      simp [Edge.standsFor, hdescribes.source_eq, hdescribes.field_eq, List.filter_cons]
  simp only [edgesAt_eq, List.filter_flatMap, hfilter]
  rw [flatMap_eq_of_nodup _ h.models hmodel,
    flatMap_eq_of_nodup _ (h.fields model hmodel) hfield]
  · simp
  · intro part _ hne
    simp [hne]
  · intro other _ hne
    simp [hne]

end Schema

end SchemaPlan
