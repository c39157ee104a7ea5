import SchemaPlan.Proofs.Relations.Placement

/-!
# The graph represents the relations of its schema

`Graph.Represents` says what the lists of a relation graph hold in terms of the fields of a schema:
no relation is lost, doubled or listed with a wrong model. Where names are distinct, the graph of a
schema represents it (`represents_graph`), whatever its relations are: owned or not, one-sided,
from a model to itself, or to a model that is not declared.
-/

set_option autoImplicit false
set_option relaxedAutoImplicit false

namespace SchemaPlan

/-- The edge as the model that it points to lists it. -/
def Edge.converse (edge : Edge) : Edge :=
  { edge with cardinality := edge.cardinality.inverse, isOwning := false }

/-- The lists of the graph hold the relations of the schema. -/
structure Graph.Represents (graph : Graph) (schema : Schema) : Prop where
  /-- There are records for exactly the declared models. -/
  records : ∀ name, (graph.model? name).isSome ↔ name ∈ schema.names
  /-- A model owns one edge for each of its owning fields, in the order of the fields. -/
  owns : ∀ model ∈ schema.models, List.Forall₂
    (fun field edge ↦ schema.Describes model field edge ∧ edge.isOwning ∧
      field.cardinality? = some edge.cardinality)
    (model.fields.filter (·.isOwning)) (graph.owns model.name)
  /-- The target of an owned edge lists its converse and nothing else for the same field. -/
  converse : ∀ name, ∀ edge ∈ graph.owns name, edge.target ∈ schema.names →
    (graph.referencedBy edge.target).filter (·.standsFor edge.source edge.field) = [edge.converse]
  /-- No model lists a converse of an owned edge whose target is not declared. -/
  dangling : ∀ name, ∀ edge ∈ graph.owns name, edge.target ∉ schema.names →
    ∀ other, ∀ listed ∈ graph.referencedBy other, ¬listed.standsFor edge.source edge.field
  /-- A field that does not own its relation has one edge in the whole graph, with its target. -/
  unpaired : ∀ model ∈ schema.models, ∀ field ∈ model.fields, field.isOwning = false →
    ∀ target ∈ schema.names, field.target? = some target →
      ¬(schema.pairingField? target field).any (·.isOwning) →
        ∃ edge, schema.Describes model field edge ∧ edge.isOwning = false ∧
          field.cardinality?.map Cardinality.inverse = some edge.cardinality ∧
          (graph.referencedBy target).filter (·.standsFor model.name field.name) = [edge] ∧
          graph.edges.filter (·.standsFor model.name field.name) = [edge]
  /-- It has none when the field at the other end owns the relation. -/
  paired : ∀ model ∈ schema.models, ∀ field ∈ model.fields, field.isOwning = false →
    ∀ target ∈ schema.names, field.target? = some target →
      (schema.pairingField? target field).any (·.isOwning) →
        graph.edges.filter (·.standsFor model.name field.name) = []
  /-- A model lists no other edges that point at it. -/
  referencedBy : ∀ name, ∀ edge ∈ graph.referencedBy name,
    ∃ model ∈ schema.models, ∃ field ∈ model.fields, edge.standsFor model.name field.name ∧
      field.target? = some name ∧
      (field.isOwning ∨ ¬(schema.pairingField? name field).any (·.isOwning))
  /-- The related models are those at the other ends of the listed edges. -/
  related : ∀ name ∈ schema.names, ∃ set, graph.related? name = some set ∧
    ∀ other, other ∈ set.names ↔ (∃ edge ∈ graph.owns name, edge.target = other) ∨
      ∃ edge ∈ graph.referencedBy name, edge.source = other

namespace Schema

variable {schema : Schema} {model : Model} {field : Field}

theorem Describes.standsFor {edge : Edge} (h : schema.Describes model field edge) :
    edge.standsFor model.name field.name := by
  simp [Edge.standsFor, h.source_eq, h.field_eq]

/-- An edge stands for the field of another edge when it stands for the field that the other
describes. -/
theorem Describes.standsFor_eq {edge : Edge} (h : schema.Describes model field edge)
    (other : Edge) :
    other.standsFor edge.source edge.field = other.standsFor model.name field.name := by
  rw [h.source_eq, h.field_eq]

/-! ### Owned edges -/

/-- A field that owns its relation places an edge on the owning side of its model. -/
theorem exists_edgeAt?_owns (schema : Schema) (model : Model) (howning : field.isOwning) :
    ∃ edge, schema.edgeAt? model.name .owns model field = some edge := by
  obtain ⟨hrelation, -⟩ := Bool.and_eq_true_iff.1 howning
  obtain ⟨target, htarget⟩ := Option.isSome_iff_exists.1 hrelation
  rw [edgeAt?, Field.target?, htarget, Option.bind_some]
  exact ⟨_, if_pos ⟨howning, rfl⟩⟩

/-- Where names do not repeat, the edges on the owning side of a model are placed by its own
fields. -/
theorem edgesAt_owns (hnodup : schema.names.Nodup) (hmodel : model ∈ schema.models) :
    schema.edgesAt model.name .owns = model.fields.flatMap fun field ↦
      (schema.edgeAt? model.name .owns model field).toList := by
  rw [edgesAt_eq, flatMap_eq_of_nodup _ hnodup hmodel]
  intro other _ hne
  refine List.flatMap_eq_nil_iff.2 fun part _ ↦ ?_
  rw [Option.toList_eq_nil_iff, Option.eq_none_iff_forall_ne_some]
  exact fun edge hplaced ↦ hne (edgeAt?_owns_eq_some_iff.1 hplaced).2.1

/-- The fields that own a relation place one edge each, in their order. -/
theorem forall₂_owns (model : Model) (fields : List Field) :
    List.Forall₂ (fun field edge ↦ schema.Describes model field edge ∧ edge.isOwning ∧
      field.cardinality? = some edge.cardinality) (fields.filter (·.isOwning))
        (fields.flatMap fun field ↦ (schema.edgeAt? model.name .owns model field).toList) := by
  induction fields with
  | nil => exact .nil
  | cons field rest ih =>
    rw [List.flatMap_cons, List.filter_cons]
    by_cases howning : field.isOwning
    · obtain ⟨edge, hplaced⟩ := exists_edgeAt?_owns schema model howning
      obtain ⟨hdescribes, -, -, hside, hcardinality⟩ := edgeAt?_owns_eq_some_iff.1 hplaced
      rw [if_pos howning, hplaced]
      exact .cons ⟨hdescribes, hside, hcardinality⟩ ih
    · have hnone : schema.edgeAt? model.name .owns model field = none :=
        Option.eq_none_iff_forall_ne_some.2 fun edge hplaced ↦
          howning (edgeAt?_owns_eq_some_iff.1 hplaced).2.2.1
      rw [if_neg howning, hnone]
      exact ih

/-- A field that owns its relation places the converse of its edge with the target, if that is
declared. -/
theorem edgeAt?_converse {name : String} {edge : Edge} (hdeclared : edge.target ∈ schema.names)
    (hplaced : schema.edgeAt? name .owns model field = some edge) :
    schema.edgeAt? edge.target .referencedBy model field = some edge.converse := by
  obtain ⟨hdescribes, -, howning, -, hcardinality⟩ := edgeAt?_owns_eq_some_iff.1 hplaced
  refine edgeAt?_referencedBy_eq_some_iff.2 ⟨?_, rfl, hdeclared, .inl howning, rfl, ?_⟩
  · exact ⟨hdescribes.source_eq, hdescribes.field_eq, hdescribes.target_eq,
      hdescribes.backReference_eq⟩
  · rw [hcardinality]
    rfl

/-! ### Edges of fields that do not own their relation -/

/-- A listed field places an edge on the pointed side of its target, if that is declared. -/
theorem exists_edgeAt?_referencedBy (model : Model) {target : String}
    (hdeclared : target ∈ schema.names) (htarget : field.target? = some target)
    (hkept : field.isOwning ∨ ¬(schema.pairingField? target field).any (·.isOwning)) :
    ∃ edge, schema.edgeAt? target .referencedBy model field = some edge := by
  rw [edgeAt?, htarget, Option.bind_some]
  exact ⟨_, if_pos ⟨rfl, declares_iff.2 hdeclared, hkept⟩⟩

/-- A field that does not own its relation has no edges but that on the pointed side of its
target. -/
theorem filter_edges_graph (h : schema.HasDistinctNames) (hmodel : model ∈ schema.models)
    (hfield : field ∈ model.fields) (howning : field.isOwning = false) {target : String}
    (hdeclared : target ∈ schema.names) (htarget : field.target? = some target) :
    schema.graph.edges.filter (·.standsFor model.name field.name) =
      (schema.edgeAt? target .referencedBy model field).toList := by
  have howns (name : String) : schema.edgeAt? name .owns model field = none := by
    refine Option.eq_none_iff_forall_ne_some.2 fun edge hplaced ↦ ?_
    simp [(edgeAt?_owns_eq_some_iff.1 hplaced).2.2.1] at howning
  simp only [edges_graph, List.filter_flatMap, List.filter_append,
    filter_edgesAt h hmodel hfield, howns, Option.toList_none, List.nil_append]
  refine flatMap_eq_of_nodup id ?_ (mem_names_graph.2 hdeclared) fun name _ hne ↦ ?_
  · rw [List.map_id]
    exact NameMap.keys_nodup schema.graph.models
  · rw [Option.toList_eq_nil_iff, Option.eq_none_iff_forall_ne_some]
    intro edge hplaced
    obtain ⟨hdescribes, rfl, -⟩ := edgeAt?_referencedBy_eq_some_iff.1 hplaced
    exact hne (Option.some.inj (hdescribes.target_eq.symm.trans htarget))

/-! ### The whole graph -/

/-- The models related to a declared model are the ends of its edges. -/
theorem related_graph {name : String} (hname : name ∈ schema.names) :
    ∃ set, schema.graph.related? name = some set ∧ ∀ other, other ∈ set.names ↔
      (∃ edge ∈ schema.graph.owns name, edge.target = other) ∨
        ∃ edge ∈ schema.graph.referencedBy name, edge.source = other := by
  refine ⟨(schema.relationsOf name).related, ?_, fun other ↦ ?_⟩
  · rw [Graph.related?, model?_graph, if_pos hname]
    rfl
  · rw [relationsOf, NameSet.mem_names_ofList, List.mem_append, List.mem_map, List.mem_map,
      owns_graph, referencedBy_graph]

/-- The graph of a schema whose names do not repeat represents it: every model owns one edge for
each of its owning fields, the targets list their converses, a field that does not own its relation
has one edge if the other end does not either, and there are no other edges. -/
theorem represents_graph (h : schema.HasDistinctNames) : schema.graph.Represents schema where
  records name := by
    rw [model?_graph]
    split <;> simp_all
  owns model hmodel := by
    rw [owns_graph, edgesAt_owns h.models hmodel]
    exact forall₂_owns model model.fields
  converse name edge hedge hdeclared := by
    rw [owns_graph] at hedge
    obtain ⟨model, hmodel, field, hfield, hplaced⟩ := mem_edgesAt.1 hedge
    simp only [(describes_of_edgeAt? hplaced).standsFor_eq]
    rw [referencedBy_graph, filter_edgesAt h hmodel hfield, edgeAt?_converse hdeclared hplaced]
    rfl
  dangling name edge hedge hdangling other listed hlisted hstands := by
    rw [owns_graph] at hedge
    rw [referencedBy_graph] at hlisted
    obtain ⟨model, hmodel, field, hfield, hplaced⟩ := mem_edgesAt.1 hedge
    have hdescribes := describes_of_edgeAt? hplaced
    rw [hdescribes.standsFor_eq] at hstands
    -- Only the same field can have placed `listed`, and it places edges with its target alone.
    have hmem : listed ∈ (schema.edgesAt other .referencedBy).filter
        (·.standsFor model.name field.name) := List.mem_filter.2 ⟨hlisted, hstands⟩
    rw [filter_edgesAt h hmodel hfield, Option.mem_toList] at hmem
    obtain ⟨hconverse, rfl, hdeclared, -⟩ := edgeAt?_referencedBy_eq_some_iff.1 hmem
    have htarget := Option.some.inj (hdescribes.target_eq.symm.trans hconverse.target_eq)
    exact hdangling (htarget ▸ hdeclared)
  unpaired model hmodel field hfield howning target hdeclared htarget hpair := by
    obtain ⟨edge, hplaced⟩ := exists_edgeAt?_referencedBy model hdeclared htarget (.inr hpair)
    obtain ⟨hdescribes, -, -, -, hside, hcardinality⟩ :=
      edgeAt?_referencedBy_eq_some_iff.1 hplaced
    refine ⟨edge, hdescribes, hside, hcardinality, ?_, ?_⟩
    · rw [referencedBy_graph, filter_edgesAt h hmodel hfield, hplaced]
      rfl
    · rw [filter_edges_graph h hmodel hfield howning hdeclared htarget, hplaced]
      rfl
  paired model hmodel field hfield howning target hdeclared htarget hpair := by
    rw [filter_edges_graph h hmodel hfield howning hdeclared htarget, Option.toList_eq_nil_iff,
      Option.eq_none_iff_forall_ne_some]
    intro edge hplaced
    obtain ⟨-, -, -, hkept, -⟩ := edgeAt?_referencedBy_eq_some_iff.1 hplaced
    simp [howning, hpair] at hkept
  referencedBy name edge hedge := by
    rw [referencedBy_graph] at hedge
    obtain ⟨model, hmodel, field, hfield, hplaced⟩ := mem_edgesAt.1 hedge
    obtain ⟨hdescribes, rfl, -, hkept, -⟩ := edgeAt?_referencedBy_eq_some_iff.1 hplaced
    exact ⟨model, hmodel, field, hfield, hdescribes.standsFor, hdescribes.target_eq, hkept⟩
  related name hname := related_graph hname

/-- Posts that users own, tags shared among posts, a tree of categories, and a log that is not
declared. -/
def journal : Schema where
  models := [
    { name := "User"
      fields := [{ Field.relation "posts" "Post" "PostToUser" [] with isList := true }] },
    { name := "Post"
      fields := [
        .relation "author" "User" "PostToUser" ["authorId"],
        .relation "log" "Log" "LogToPost" ["logId"],
        { Field.relation "tags" "Tag" "PostToTag" [] with isList := true }] },
    { name := "Tag"
      fields := [{ Field.relation "posts" "Post" "PostToTag" [] with isList := true }] },
    { name := "Category"
      fields := [
        .relation "parent" "Category" "Tree" ["parentId"],
        { Field.relation "children" "Category" "Tree" [] with isList := true }] }]

/-- The journal has relations of every kind, one of them to a model that is not declared. -/
theorem represents_graph_journal :
    journal.HasDistinctNames ∧ journal.graph.Represents journal := by
  have hnames : journal.HasDistinctNames := ⟨by decide, by decide⟩
  exact ⟨hnames, represents_graph hnames⟩

end Schema

end SchemaPlan
