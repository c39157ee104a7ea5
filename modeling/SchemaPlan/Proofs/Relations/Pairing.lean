import SchemaPlan.Proofs.Relations.Representation

/-!
# The field at the other end of a relation

The graph looks for the other end of a relation field among the relation fields of the model that
the field points to: it takes the first one of the same relation name and another field name
(`exists_model_of_pairOf?`). Nothing makes that field point back, so a relation name that stands
between two pairs of models can mislead it (`not_backReferences_pointBack_tournament`). The back
references of a graph lead to the other ends of their relations exactly when the fields that it
lists are paired with fields that point back (`backReferences_pointBack_iff`).
-/

set_option autoImplicit false
set_option relaxedAutoImplicit false

namespace SchemaPlan.Schema

variable {schema : Schema} {model : Model} {field other : Field} {edge : Edge} {name : String}

/-- The field that the graph takes for the other end of a relation field. -/
def pairOf? (schema : Schema) (field : Field) : Option Field :=
  field.target?.bind fun target ↦ schema.pairingField? target field

/-- The graph lists a relation field with the model that it points to: the field owns the relation,
or the field at the other end does not. -/
def Lists (schema : Schema) (field : Field) : Prop :=
  field.isOwning ∨ ¬(schema.pairOf? field).any (·.isOwning)

/-- What the graph takes for the other end of a field of the model points back to the model. -/
def PairsBack (schema : Schema) (model : Model) (field : Field) : Prop :=
  ∀ other ∈ schema.pairOf? field, other.target? = some model.name

instance (schema : Schema) (field : Field) : Decidable (schema.Lists field) :=
  inferInstanceAs (Decidable (_ ∨ _))

instance (schema : Schema) (model : Model) (field : Field) :
    Decidable (schema.PairsBack model field) :=
  inferInstanceAs (Decidable (∀ other ∈ schema.pairOf? field, other.target? = some model.name))

theorem pairOf?_eq {target : String} (htarget : field.target? = some target) :
    schema.pairOf? field = schema.pairingField? target field := by
  rw [pairOf?, htarget, Option.bind_some]

/-- What is taken for the other end of a field is a relation field of another name in the model it
points to, with the same relation name. -/
theorem exists_model_of_pairOf? (h : schema.pairOf? field = some other) :
    ∃ related ∈ schema.models, field.target? = some related.name ∧ other ∈ related.fields ∧
      other.isRelation ∧ other.name ≠ field.name ∧
      ∃ relation, field.relationName = some relation ∧ other.relationName = some relation := by
  obtain ⟨target, htarget, hpair⟩ := Option.bind_eq_some_iff.1 h
  obtain ⟨related, hrelated, hfind⟩ := Option.bind_eq_some_iff.1 hpair
  have hname : related.name = target := by simpa using List.find?_some hrelated
  unfold Model.pairingField? at hfind
  split at hfind
  · cases hfind
  · next relation hrelation =>
    have hmem := List.mem_filter.1 (List.mem_of_find?_eq_some hfind)
    have hfound := List.find?_some hfind
    rw [Bool.and_eq_true, beq_iff_eq, bne_iff_ne] at hfound
    exact ⟨related, List.mem_of_find?_eq_some hrelated, hname ▸ htarget, hmem.1, hmem.2, hfound.2,
      relation, hrelation, hfound.1⟩

/-- A field is the one found if no field beside it, the namesake of the searching field apart, has
the relation name. -/
theorem pairOf?_eq_some_of_unique {related : Model} {relation : String}
    (h : schema.HasDistinctNames) (hrelated : related ∈ schema.models)
    (hother : other ∈ related.fields) (hrelation : other.isRelation)
    (htarget : field.target? = some related.name) (hne : other.name ≠ field.name)
    (hfieldName : field.relationName = some relation)
    (hotherName : other.relationName = some relation)
    (hunique : ∀ part ∈ related.fields, part.relationName = some relation →
      part.name = field.name ∨ part.name = other.name) :
    schema.pairOf? field = some other := by
  rw [pairOf?_eq htarget, pairingField?, model?_of_mem h.models hrelated, Option.bind_some,
    Model.pairingField?, hfieldName]
  refine find?_eq_some_of_unique (List.mem_filter.2 ⟨hother, hrelation⟩) ?_ ?_
  · simp [hotherName, hne]
  · intro part hpart hwanted
    have hmem : part ∈ related.fields := (List.mem_filter.1 hpart).1
    rw [Bool.and_eq_true, beq_iff_eq, bne_iff_ne] at hwanted
    have hname : part.name = other.name := (hunique part hmem hwanted.1).resolve_left hwanted.2
    exact List.inj_on_of_nodup_map (h.fields related hrelated) hmem hother hname

/-! ### The edges of the graph -/

/-- A field that places an edge is listed. -/
theorem lists_of_edgeAt? {side : Side} (h : schema.edgeAt? name side model field = some edge) :
    schema.Lists field := by
  cases side with
  | owns => exact .inl (edgeAt?_owns_eq_some_iff.1 h).2.2.1
  | referencedBy =>
    obtain ⟨hdescribes, rfl, -, hkept, -⟩ := edgeAt?_referencedBy_eq_some_iff.1 h
    rw [Lists, pairOf?_eq hdescribes.target_eq]
    exact hkept

/-- A field that is listed and points to a declared model has an edge in the graph. -/
theorem exists_edge_of_lists (hmodel : model ∈ schema.models) (hfield : field ∈ model.fields)
    (hlists : schema.Lists field) {target : String} (htarget : field.target? = some target)
    (hdeclared : target ∈ schema.names) :
    ∃ edge ∈ schema.graph.edges, schema.Describes model field edge := by
  rw [Lists, pairOf?_eq htarget] at hlists
  obtain ⟨edge, hplaced⟩ := exists_edgeAt?_referencedBy model hdeclared htarget hlists
  have hedge : edge ∈ schema.edgesAt target .referencedBy :=
    mem_edgesAt.2 ⟨model, hmodel, field, hfield, hplaced⟩
  exact ⟨edge, mem_edges_graph.2 ⟨target, .referencedBy, hedge⟩, describes_of_edgeAt? hplaced⟩

/-- Every edge of the graph describes a listed field. -/
theorem exists_field_of_mem_edges (h : edge ∈ schema.graph.edges) :
    ∃ model ∈ schema.models, ∃ field ∈ model.fields,
      schema.Describes model field edge ∧ schema.Lists field := by
  obtain ⟨name, side, hedge⟩ := mem_edges_graph.1 h
  obtain ⟨model, hmodel, field, hfield, hplaced⟩ := mem_edgesAt.1 hedge
  exact ⟨model, hmodel, field, hfield, describes_of_edgeAt? hplaced, lists_of_edgeAt? hplaced⟩

/-- The back reference of an edge is the name of what is taken for the other end of its field. -/
theorem Describes.backReference_eq_pairOf? (h : schema.Describes model field edge) :
    edge.backReference = (schema.pairOf? field).map (·.name) := by
  rw [pairOf?_eq h.target_eq, h.backReference_eq]

/-! ### Back references -/

/-- An edge with a back reference describes a field for which another end is found. -/
theorem exists_pairOf?_of_backReference (h : edge ∈ schema.graph.edges)
    (hback : edge.backReference = some name) :
    ∃ model ∈ schema.models, ∃ field ∈ model.fields, ∃ other, other.name = name ∧
      schema.Describes model field edge ∧ schema.Lists field ∧
      schema.pairOf? field = some other := by
  obtain ⟨model, hmodel, field, hfield, hdescribes, hlists⟩ := exists_field_of_mem_edges h
  rw [hdescribes.backReference_eq_pairOf?] at hback
  obtain ⟨other, hpair, hname⟩ := Option.map_eq_some_iff.1 hback
  exact ⟨model, hmodel, field, hfield, other, hname, hdescribes, hlists, hpair⟩

/-- No edge has its own field for its back reference. -/
theorem ne_field_of_backReference (h : edge ∈ schema.graph.edges)
    (hback : edge.backReference = some name) : name ≠ edge.field := by
  obtain ⟨model, -, field, -, other, rfl, hdescribes, -, hpair⟩ :=
    exists_pairOf?_of_backReference h hback
  obtain ⟨-, -, -, -, -, hne, -⟩ := exists_model_of_pairOf? hpair
  rw [hdescribes.field_eq]
  exact hne

/-- The model that an edge points to declares a relation field `other` of the name, and the relation
name of that field is that of the field that the edge stands for. -/
structure Counterpart (schema : Schema) (edge : Edge) (name : String) (other : Field) : Prop where
  declared : ∃ related ∈ schema.models, related.name = edge.target ∧ other ∈ related.fields
  isRelation : other.isRelation
  name_eq : other.name = name
  relationName : ∃ model ∈ schema.models, model.name = edge.source ∧
    ∃ field ∈ model.fields, field.name = edge.field ∧
      ∃ relation, field.relationName = some relation ∧ other.relationName = some relation

/-- What is taken for the other end of a field is a counterpart of its edges. -/
theorem Describes.counterpart (hmodel : model ∈ schema.models) (hfield : field ∈ model.fields)
    (h : schema.Describes model field edge) (hpair : schema.pairOf? field = some other) :
    schema.Counterpart edge other.name other := by
  obtain ⟨related, hrelated, htarget, hother, hrelation, -, relation, hnames⟩ :=
    exists_model_of_pairOf? hpair
  have hname : related.name = edge.target := Option.some.inj (htarget.symm.trans h.target_eq)
  exact ⟨⟨related, hrelated, hname, hother⟩, hrelation, rfl,
    model, hmodel, h.source_eq.symm, field, hfield, h.field_eq.symm, relation, hnames⟩

/-- Where names do not repeat, an edge has one counterpart of a name. -/
theorem Counterpart.unique (hnames : schema.HasDistinctNames) {first second : Field}
    (hfirst : schema.Counterpart edge name first) (hsecond : schema.Counterpart edge name second) :
    first = second := by
  obtain ⟨related, hrelated, htarget, hmem⟩ := hfirst.declared
  obtain ⟨related', hrelated', htarget', hmem'⟩ := hsecond.declared
  have hmodel : related' = related :=
    List.inj_on_of_nodup_map hnames.models hrelated' hrelated (htarget'.trans htarget.symm)
  subst hmodel
  exact List.inj_on_of_nodup_map (hnames.fields related' hrelated') hmem hmem'
    (hfirst.name_eq.trans hsecond.name_eq.symm)

/-- Every back reference of the graph leads to a field of the same relation name. It leads to the
other end of its relation throughout exactly when each listed field is paired with one that points
back. -/
theorem backReferences_pointBack_iff (h : schema.HasDistinctNames) :
    (∀ edge ∈ schema.graph.edges, ∀ name, edge.backReference = some name →
      ∃ other, schema.Counterpart edge name other) ∧
    ((∀ edge ∈ schema.graph.edges, ∀ name, edge.backReference = some name →
        ∃ other, schema.Counterpart edge name other ∧ other.target? = some edge.source) ↔
      ∀ model ∈ schema.models, ∀ field ∈ model.fields,
        schema.Lists field → schema.PairsBack model field) := by
  refine ⟨?_, ?_, ?_⟩
  · intro edge hedge name hback
    obtain ⟨model, hmodel, field, hfield, other, rfl, hdescribes, -, hpair⟩ :=
      exists_pairOf?_of_backReference hedge hback
    exact ⟨other, hdescribes.counterpart hmodel hfield hpair⟩
  · intro hall model hmodel field hfield hlists other hpair
    obtain ⟨related, hrelated, htarget, -⟩ := exists_model_of_pairOf? hpair
    obtain ⟨edge, hedge, hdescribes⟩ :=
      exists_edge_of_lists hmodel hfield hlists htarget (List.mem_map_of_mem hrelated)
    have hback : edge.backReference = some other.name := by
      rw [hdescribes.backReference_eq_pairOf?, hpair, Option.map_some]
    obtain ⟨found, hfound, hpoints⟩ := hall edge hedge other.name hback
    have hsame : found = other := hfound.unique h (hdescribes.counterpart hmodel hfield hpair)
    rw [← hsame, hpoints, hdescribes.source_eq]
  · intro hall edge hedge name hback
    obtain ⟨model, hmodel, field, hfield, other, rfl, hdescribes, hlists, hpair⟩ :=
      exists_pairOf?_of_backReference hedge hback
    refine ⟨other, hdescribes.counterpart hmodel hfield hpair, ?_⟩
    rw [hdescribes.source_eq]
    exact hall model hmodel field hfield hlists other hpair

/-- In the journal every relation name is that of one relation. -/
theorem backReferences_pointBack_journal : journal.HasDistinctNames ∧
    ∀ edge ∈ journal.graph.edges, ∀ name, edge.backReference = some name →
      ∃ other, journal.Counterpart edge name other ∧ other.target? = some edge.source := by
  have hnames : journal.HasDistinctNames := ⟨by decide, by decide⟩
  exact ⟨hnames, (backReferences_pointBack_iff hnames).2.2 (by decide)⟩

/-- Players belong to teams and teams to leagues, and both relations are called a membership. -/
def tournament : Schema where
  models := [
    { name := "Player"
      fields := [
        { name := "teamId", type := .int },
        .relation "team" "Team" "Membership" ["teamId"]] },
    { name := "Team"
      fields := [
        { name := "leagueId", type := .int },
        .relation "league" "League" "Membership" ["leagueId"],
        { Field.relation "players" "Player" "Membership" [] with isList := true }] },
    { name := "League"
      fields := [{ Field.relation "teams" "Team" "Membership" [] with isList := true }] }]

/-- The edge from a player to the team has the league of the team for its back reference, and that
field points to leagues. -/
theorem not_backReferences_pointBack_tournament : tournament.HasDistinctNames ∧
    ¬∀ edge ∈ tournament.graph.edges, ∀ name, edge.backReference = some name →
      ∃ other, tournament.Counterpart edge name other ∧ other.target? = some edge.source := by
  have hnames : tournament.HasDistinctNames := ⟨by decide, by decide⟩
  refine ⟨hnames, fun hall ↦ ?_⟩
  have hedge : (⟨"Player", "team", "Team", .manyToOne, true, some "league"⟩ : Edge) ∈
      tournament.graph.edges := by decide
  obtain ⟨other, hother, hpoints⟩ := hall _ hedge "league" rfl
  obtain ⟨related, hrelated, htarget, hmem⟩ := hother.declared
  have hleague : ∀ related ∈ tournament.models, related.name = "Team" →
      ∀ other ∈ related.fields, other.name = "league" → other.target? = some "League" := by decide
  have hleads := hleague related hrelated htarget other hmem hother.name_eq
  rw [hleads] at hpoints
  exact absurd hpoints (by decide)

end SchemaPlan.Schema
