import SchemaPlan.Proofs.Projection.Expansion
import SchemaPlan.Proofs.Projection.Termination
import SchemaPlan.Relations.OfSchema

/-!
# The levels below the root

The names of a level below the root come from no query but from an expansion. `IsWellFormed` says
what such a level holds: names of fields of its model, at least one, none of them a list of related
records, and exactly those that are configured for the model or, where none are, its plain fields.
All levels below the root of a synthesized projection are of this kind (`isWellFormed_nested`),
whatever the graph and the configured names, and also where several models have one name.
-/

set_option autoImplicit false
set_option relaxedAutoImplicit false

namespace SchemaPlan.Synthesis

/-- What a level below the root holds; `model` is what the schema declares under its name. -/
structure IsWellFormed (synthesis : Synthesis) (model : Model) (node : Projection) : Prop where
  declared : synthesis.schema.model? node.model = some model
  nonempty : node.isEmpty = false
  /-- Every name is that of a field, and no name is that of a list of related records. -/
  fields : ∀ name, node.contains name →
    ∃ field ∈ model.fields, field.name = name ∧ ¬(field.isRelation ∧ field.isList)
  /-- A branch stands under a relation to a single record of its model. -/
  nested : ∀ branch ∈ node.nested, ∃ field ∈ model.fields, field.name = branch.1 ∧
    field.isList = false ∧ field.target? = some branch.2.model
  /-- Where names are configured for the model, no other name is fetched, and those of them that
  are no relations are all fetched as scalars. -/
  configured : ∀ names, synthesis.source node.model = some names →
    (∀ name, node.contains name → name ∈ names) ∧
      ∀ field ∈ model.fields, field.isRelation = false → field.name ∈ names →
        field.name ∈ node.scalars
  /-- Where none are, the plain fields are fetched and nothing else. -/
  plain : synthesis.source node.model = none →
    node.scalars = model.plainNames ∧ node.references = [] ∧ node.nested = []
  /-- So they leave out the columns that no query can read. -/
  selectable : synthesis.source node.model = none →
    ∀ field ∈ model.fields, field.name ∈ node.scalars → field.type.isSelectable

variable {synthesis : Synthesis} {path : List String} {model name target : String}

/-- No relation to a list is fetched below another relation. -/
theorem not_isList_of_isCandidate {pointsBack : Bool} {current : String} {field : Field}
    (h : isCandidate pointsBack current field) : ¬(field.isRelation ∧ field.isList) := by
  rintro ⟨hrelation, hlist⟩
  obtain ⟨other, htarget⟩ := Option.isSome_iff_exists.1 hrelation
  rw [isCandidate, Field.target?, htarget] at h
  simp [hlist] at h

/-- The level that an expansion adds is well formed. -/
theorem isWellFormed_of_treat_eq_expand
    (hfields : ∀ model ∈ synthesis.schema.models, (model.fields.map (·.name)).Nodup)
    {fresh : target ∈ synthesis.schema.names ∧ target ∉ path} {names : List String}
    (h : synthesis.treat path model name = .expand target fresh names) :
    ∃ related, synthesis.IsWellFormed related
      (synthesis.project (target :: path) target names) := by
  obtain ⟨-, -, related, -, -, -, -, hrelated, rfl, hnames⟩ := treat_eq_expand_iff.1 h
  obtain ⟨hmem, rfl⟩ := Schema.mem_of_model? hrelated
  have hnodup := hfields related hmem
  refine ⟨related, ?_⟩
  constructor
  case declared => rwa [project_model]
  case nonempty =>
    obtain ⟨first, hfirst⟩ := List.exists_mem_of_ne_nil _ hnames
    exact Projection.isEmpty_eq_false_of_contains (contains_project.2 hfirst)
  case fields =>
    intro name hname
    obtain ⟨field, hfield, -, hcandidate⟩ :=
      (mem_candidates_iff hnodup).1 (contains_project.1 hname)
    obtain ⟨hmem, hname⟩ := Model.mem_of_field? hfield
    exact ⟨field, hmem, hname, not_isList_of_isCandidate hcandidate⟩
  case nested =>
    intro branch hbranch
    obtain ⟨-, below, _, names, htreat, hnode⟩ := mem_nested_project.1 hbranch
    obtain ⟨found, field, -, hfound, hfield, htarget, hlist, -⟩ := treat_eq_expand_iff.1 htreat
    obtain rfl : found = related := Option.some.inj (hfound.symm.trans hrelated)
    rw [hnode, project_model]
    obtain ⟨hmem, hname⟩ := Model.mem_of_field? hfield
    exact ⟨field, hmem, hname, hlist, htarget⟩
  case configured =>
    intro configured hsource
    rw [project_model] at hsource
    constructor
    · intro name hname
      obtain ⟨field, hfield, hchosen, -⟩ :=
        (mem_candidates_iff hnodup).1 (contains_project.1 hname)
      obtain ⟨-, rfl⟩ := Model.mem_of_field? hfield
      simpa [Chooses, hsource] using hchosen
    · intro field hmem hrelation hconfigured
      have hfield := Model.field?_of_mem hnodup hmem
      have htarget := Field.target?_eq_none_iff.2 hrelation
      rw [mem_scalars_project, treat_of_target?_eq_none hrelated hfield htarget]
      refine ⟨(mem_candidates_iff hnodup).2 ⟨field, hfield, ?_, ?_⟩, rfl⟩
      · simpa [Chooses, hsource] using hconfigured
      · exact isCandidate_of_target?_eq_none htarget _ _
  case plain =>
    intro hsource
    rw [project_model] at hsource
    rw [candidates_of_source_eq_none hsource, project_plainNames hrelated hnodup]
    exact ⟨rfl, rfl, rfl⟩
  case selectable =>
    intro hsource field hmem hscalar
    rw [project_model] at hsource
    rw [candidates_of_source_eq_none hsource, project_plainNames hrelated hnodup] at hscalar
    obtain ⟨other, hother, hsame⟩ := List.mem_map.1 hscalar
    obtain ⟨hotherMem, hplain⟩ := List.mem_filter.1 hother
    obtain rfl : other = field := List.inj_on_of_nodup_map hnodup hotherMem hmem hsame
    exact (Bool.and_eq_true_iff.1 hplain).2

/-- Every level below the root is well formed: it is a branch of a level above. -/
theorem isWellFormed_nested
    (hfields : ∀ model ∈ synthesis.schema.models, (model.fields.map (·.name)).Nodup)
    {root : String} {selected : List String} {parent : Projection}
    (hparent : (synthesis.projectRoot root selected).HasNode parent) {branch : Branch}
    (hbranch : branch ∈ parent.nested) :
    ∃ model, synthesis.IsWellFormed model branch.2 := by
  obtain ⟨path, place, names, -, rfl⟩ :=
    exists_project_of_hasNode (List.mem_singleton_self root) hparent
  obtain ⟨-, target, fresh, candidates, htreat, hnode⟩ := mem_nested_project.1 hbranch
  rw [hnode]
  exact isWellFormed_of_treat_eq_expand hfields htreat

/-- Orders of customers, who live in cities. Two columns cannot be read by queries. -/
def delivery : Schema where
  models := [
    { name := "Order"
      fields := [
        { name := "id", type := .int, isId := true },
        .relation "customer" "Customer" "CustomerToOrder" ["customerId"]] },
    { name := "Customer"
      fields := [
        { name := "phone", type := .unsupported "citext" },
        { Field.relation "orders" "Order" "CustomerToOrder" [] with isList := true },
        .relation "city" "City" "CityToCustomer" ["cityId"]] },
    { name := "City"
      fields := [
        { name := "name", type := .string },
        { name := "area", type := .unsupported "geometry" }] }]

/-- The names configured for customers are those of all their fields and one more. -/
def deliverySynthesis : Synthesis where
  schema := delivery
  graph := delivery.graph
  source name :=
    if name = "Customer" then some ["city", "orders", "missing", "phone"] else none

/-- The projection of a city under a customer. -/
def cityBranch : Branch := ("city", ⟨"City", ["name"], [], []⟩)

/-- The projection of a customer under an order. -/
def customerBranch : Branch := ("customer", ⟨"Customer", ["phone"], [], [cityBranch]⟩)

/-- The customer of an order, with fields set for the queries, and the city below, without. -/
theorem isWellFormed_nested_delivery :
    (∀ model ∈ deliverySynthesis.schema.models, (model.fields.map (·.name)).Nodup) ∧
      ∃ tree, deliverySynthesis.projectRoot "Order" ["id", "customer"] = tree ∧
        (tree.HasNode tree ∧ customerBranch ∈ tree.nested ∧
          ∃ model, deliverySynthesis.IsWellFormed model customerBranch.2) ∧
        tree.HasNode customerBranch.2 ∧ cityBranch ∈ customerBranch.2.nested ∧
          ∃ model, deliverySynthesis.IsWellFormed model cityBranch.2 := by
  have hfields : ∀ model ∈ deliverySynthesis.schema.models,
      (model.fields.map (·.name)).Nodup := by decide
  have htree : deliverySynthesis.projectRoot "Order" ["id", "customer"] =
      ⟨"Order", ["id"], [], [customerBranch]⟩ := projectRoot_eq_of_projectWithin 3 (by decide) rfl
  have hcustomer : customerBranch ∈
      (deliverySynthesis.projectRoot "Order" ["id", "customer"]).nested := by
    rw [htree]
    exact List.mem_singleton_self customerBranch
  have hcity : cityBranch ∈ customerBranch.2.nested := List.mem_singleton_self cityBranch
  have hroot := Projection.hasNode_self
    (deliverySynthesis.projectRoot "Order" ["id", "customer"])
  have hbelow : (deliverySynthesis.projectRoot "Order" ["id", "customer"]).HasNode
      customerBranch.2 :=
    ⟨_, .step hcustomer (.here customerBranch.2), by simp⟩
  exact ⟨hfields, _, rfl, ⟨hroot, hcustomer, isWellFormed_nested hfields hroot hcustomer⟩,
    hbelow, hcity, isWellFormed_nested hfields hbelow hcity⟩

end SchemaPlan.Synthesis
