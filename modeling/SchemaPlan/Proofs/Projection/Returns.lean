import SchemaPlan.Proofs.Projection.Expansion
import SchemaPlan.Proofs.Projection.Termination
import SchemaPlan.Proofs.Relations.Counting
import SchemaPlan.Proofs.Relations.Related

/-!
# Relations back to the level above

What is fetched below a relation leaves out the relations back to the model that it comes from, if
the relation graph lists this model with the one below (`leadsBack_project_iff`). So no level ever
fetches a relation back exactly when the graph lists any two models with each other that have
relations to single records of each other. It does so where such relations are paired with fields
that point back (`hasNoReturns_iff`), and can fail to where a relation name stands between two pairs
of models (`not_hasNoReturns_festival`).
-/

set_option autoImplicit false
set_option relaxedAutoImplicit false

namespace SchemaPlan

namespace Schema

/-- The level fetches a relation field of its model that points to `parent`. -/
def LeadsBack (schema : Schema) (parent : String) (node : Projection) : Prop :=
  ∃ model, schema.model? node.model = some model ∧
    ∃ field ∈ model.fields, field.target? = some parent ∧ node.contains field.name

/-- Whatever is configured and selected, no level of a projection that is synthesized with the graph
of the schema leads back to the level above. -/
def HasNoReturns (schema : Schema) : Prop :=
  ∀ (source : SelectionSource) (root : String) (selected : List String) (parent : Projection),
    (Synthesis.projectRoot ⟨schema, schema.graph, source⟩ root selected).HasNode parent →
      ∀ branch ∈ parent.nested, ¬schema.LeadsBack parent.model branch.2

end Schema

/-! ### One expansion -/

namespace Synthesis

variable {synthesis : Synthesis} {path : List String} {model target : String}

/-- A field that leads back is fetched when it leads to a single record and the graph does not
relate the two models. -/
theorem isCandidate_iff_of_target? {pointsBack : Bool} {current : String} {field : Field}
    (h : field.target? = some current) :
    isCandidate pointsBack current field ↔ field.isList = false ∧ pointsBack = false := by
  rw [isCandidate, h]
  simp

/-- A level leads back exactly when the graph misses the relation and a chosen field leads back. -/
theorem leadsBack_project_iff {related : Model}
    (hrelated : synthesis.schema.model? target = some related)
    (hnodup : (related.fields.map (·.name)).Nodup) :
    synthesis.schema.LeadsBack model
        (synthesis.project path target (synthesis.candidates model related)) ↔
      synthesis.graph.isRelated target model = false ∧ ∃ field ∈ related.fields,
        field.target? = some model ∧ field.isList = false ∧ synthesis.Chooses related field := by
  obtain ⟨-, rfl⟩ := Schema.mem_of_model? hrelated
  rw [Schema.LeadsBack, project_model]
  constructor
  · rintro ⟨found, hfound, field, hfield, htarget, hfetched⟩
    obtain rfl : found = related := Option.some.inj (hfound.symm.trans hrelated)
    obtain ⟨other, hother, hchosen, hcandidate⟩ :=
      (mem_candidates_iff hnodup).1 (contains_project.1 hfetched)
    obtain rfl : other = field :=
      Option.some.inj (hother.symm.trans (Model.field?_of_mem hnodup hfield))
    obtain ⟨hlist, hunrelated⟩ := (isCandidate_iff_of_target? htarget).1 hcandidate
    exact ⟨hunrelated, other, hfield, htarget, hlist, hchosen⟩
  · rintro ⟨hunrelated, field, hfield, htarget, hlist, hchosen⟩
    have hcandidate := (isCandidate_iff_of_target? htarget).2 ⟨hlist, hunrelated⟩
    have hmem := (mem_candidates_iff hnodup).2
      ⟨field, Model.field?_of_mem hnodup hfield, hchosen, hcandidate⟩
    exact ⟨related, hrelated, field, hfield, htarget, contains_project.2 hmem⟩

end Synthesis

/-! ### Whole trees -/

namespace Schema

variable {schema : Schema} {first second : String}

/-- A single relation of the first model to the second is expanded at the root, and what is
configured for the second model is what is fetched from it. -/
theorem HasNoReturns.isRelated (hnames : schema.HasDistinctNames) (h : schema.HasNoReturns)
    (hne : first ≠ second) (hforth : schema.RelatesBy (·.isList = false) second first)
    (hback : schema.RelatesBy (·.isList = false) first second) :
    schema.graph.isRelated first second := by
  obtain ⟨model, hmodel, rfl, field, hfield, htarget, hlist⟩ := hforth
  obtain ⟨related, hrelated, rfl, other, hother, hpoints, hsingle⟩ := hback
  by_contra hunrelated
  rw [Bool.not_eq_true] at hunrelated
  let synthesis : Synthesis := ⟨schema, schema.graph, fun _ ↦ some [other.name]⟩
  have hfields := hnames.fields related hrelated
  have hdescriptor := model?_of_mem hnames.models hmodel
  have hdeclared := model?_of_mem hnames.models hrelated
  have hchosen : synthesis.Chooses related other := List.mem_singleton_self other.name
  have hcandidates : synthesis.candidates model.name related ≠ [] := by
    refine List.ne_nil_of_mem ((Synthesis.mem_candidates_iff hfields).2
      ⟨other, Model.field?_of_mem hfields hother, hchosen, ?_⟩)
    exact (Synthesis.isCandidate_iff_of_target? hpoints).2 ⟨hsingle, hunrelated⟩
  have hbranch := synthesis.mem_nested_projectRoot hdescriptor
    (Model.field?_of_mem (hnames.fields model hmodel) hfield) htarget hlist hdeclared hne
    hcandidates
  refine h synthesis.source model.name [field.name] _ (Projection.hasNode_self _) _ hbranch ?_
  rw [Synthesis.projectRoot, Synthesis.project_model]
  exact (Synthesis.leadsBack_project_iff hdeclared hfields).2
    ⟨hunrelated, other, hother, hpoints, hsingle, hchosen⟩

/-- No tree leads back when the graph relates the models that refer to each other. -/
theorem hasNoReturns_of_isRelated (hnames : schema.HasDistinctNames)
    (h : ∀ first second, first ≠ second → schema.RelatesBy (·.isList = false) first second →
      schema.RelatesBy (·.isList = false) second first → schema.graph.isRelated first second) :
    schema.HasNoReturns := by
  intro source root selected parent hparent branch hbranch hback
  obtain ⟨path, place, names, hplace, rfl⟩ :=
    Synthesis.exists_project_of_hasNode (List.mem_singleton_self root) hparent
  obtain ⟨-, target, fresh, candidates, htreat, hnode⟩ := Synthesis.mem_nested_project.1 hbranch
  obtain ⟨model, field, related, hmodel, hfield, htarget, hlist, hrelated, rfl, -⟩ :=
    Synthesis.treat_eq_expand_iff.1 htreat
  obtain ⟨hmodelMem, rfl⟩ := mem_of_model? hmodel
  obtain ⟨hfieldMem, -⟩ := Model.mem_of_field? hfield
  obtain ⟨hrelatedMem, rfl⟩ := mem_of_model? hrelated
  rw [hnode, Synthesis.project_model, Synthesis.leadsBack_project_iff hrelated
    (hnames.fields related hrelatedMem)] at hback
  obtain ⟨hunrelated, other, hother, hpoints, hsingle, -⟩ := hback
  have hne : related.name ≠ model.name := fun heq ↦ fresh.2 (heq ▸ hplace)
  have hlisted := h related.name model.name hne
    ⟨related, hrelatedMem, rfl, other, hother, hpoints, hsingle⟩
    ⟨model, hmodelMem, rfl, field, hfieldMem, htarget, hlist⟩
  exact Bool.false_ne_true (hunrelated.symm.trans hlisted)

/-- A field that is paired with one that points back makes the graph list its own model with the
model that it points to: it is listed there itself, or what it is paired with owns the relation. -/
theorem isRelated_of_pairsBack {model : Model} {field : Field} (hmodel : model ∈ schema.models)
    (hfield : field ∈ model.fields) (htarget : field.target? = some first)
    (hfirst : first ∈ schema.names) (hpairs : schema.PairsBack model field) :
    schema.graph.isRelated first model.name := by
  rw [isRelated_graph_iff hfirst]
  by_cases hlists : schema.Lists field
  · exact .inr ⟨model, hmodel, rfl, field, hfield, htarget, hlists⟩
  · rw [Lists, not_or, not_not, Option.any_eq_true] at hlists
    obtain ⟨-, other, hpair, howns⟩ := hlists
    obtain ⟨related, hrelated, hname, hother, -⟩ := exists_model_of_pairOf? hpair
    exact .inl ⟨related, hrelated, Option.some.inj (hname.symm.trans htarget), other, hother,
      hpairs other hpair, howns⟩

/-- No level of a projection leads back to the level above exactly when the graph lists any two
models with each other that have single relations to each other. It is enough that every single
relation is paired with a field that points back, if it is paired at all. -/
theorem hasNoReturns_iff (hnames : schema.HasDistinctNames) :
    (schema.HasNoReturns ↔ ∀ first second, first ≠ second →
      schema.RelatesBy (·.isList = false) first second →
        schema.RelatesBy (·.isList = false) second first →
          schema.graph.isRelated first second) ∧
    ((∀ model ∈ schema.models, ∀ field ∈ model.fields, field.isList = false →
      schema.PairsBack model field) → schema.HasNoReturns) := by
  constructor
  · constructor
    · intro h first second hne hback hforth
      exact h.isRelated hnames hne hforth hback
    · exact hasNoReturns_of_isRelated hnames
  · intro hpairs
    refine hasNoReturns_of_isRelated hnames fun first second _ hback hforth ↦ ?_
    obtain ⟨related, hrelated, rfl, -⟩ := hback
    obtain ⟨model, hmodel, rfl, field, hfield, htarget, hlist⟩ := hforth
    exact isRelated_of_pairsBack hmodel hfield htarget (List.mem_map_of_mem hrelated)
      (hpairs model hmodel field hfield hlist)

/-- Orders and invoices, whose fields have different names. -/
theorem hasNoReturns_trade : (trade "invoice" "order").HasDistinctNames ∧
    (∀ model ∈ (trade "invoice" "order").models, ∀ field ∈ model.fields,
      field.isList = false → (trade "invoice" "order").PairsBack model field) ∧
    (trade "invoice" "order").HasNoReturns := by
  have hnames : (trade "invoice" "order").HasDistinctNames := ⟨by decide, by decide⟩
  have hpairs : ∀ model ∈ (trade "invoice" "order").models, ∀ field ∈ model.fields,
      field.isList = false → (trade "invoice" "order").PairsBack model field := by decide
  exact ⟨hnames, hpairs, (hasNoReturns_iff hnames).2 hpairs⟩

/-- Guests hold tickets and tickets are for concerts, and both relations are called an admission. -/
def festival : Schema where
  models := [
    { name := "Guest"
      fields := [
        { name := "id", type := .int, isId := true },
        .relation "ticket" "Ticket" "Admission" []] },
    { name := "Ticket"
      fields := [
        { name := "id", type := .int, isId := true },
        { name := "concertId", type := .int },
        .relation "concert" "Concert" "Admission" ["concertId"],
        .relation "guest" "Guest" "Admission" []] },
    { name := "Concert"
      fields := [
        { name := "id", type := .int, isId := true },
        { Field.relation "tickets" "Ticket" "Admission" [] with isList := true }] }]

/-- The fields configured for tickets. -/
def ticketFields : SelectionSource := fun name ↦
  if name = "Ticket" then some ["id", "guest"] else none

/-- The ticket of a guest fetches the guest: the graph pairs the relation of guests to tickets with
that of tickets to concerts, and so does not list guests with tickets. -/
theorem not_hasNoReturns_festival : festival.HasDistinctNames ∧ ¬festival.HasNoReturns := by
  refine ⟨⟨by decide, by decide⟩, fun hall ↦ ?_⟩
  have htree : Synthesis.projectRoot ⟨festival, festival.graph, ticketFields⟩ "Guest" ["ticket"] =
      ⟨"Guest", [], [], [("ticket", ⟨"Ticket", ["id"], ["guest"], []⟩)]⟩ :=
    Synthesis.projectRoot_eq_of_projectWithin 3 (by decide) rfl
  have hnone := hall ticketFields "Guest" ["ticket"] _ (Projection.hasNode_self _)
  rw [htree] at hnone
  refine hnone _ (List.mem_singleton_self _) ?_
  exact ⟨_, rfl, .relation "guest" "Guest" "Admission" [], by simp, rfl, by decide⟩

end Schema

end SchemaPlan
