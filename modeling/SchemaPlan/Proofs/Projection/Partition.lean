import SchemaPlan.Proofs.Projection.Expansion
import SchemaPlan.Proofs.Projection.Termination

/-!
# Every level divides its selection

Each distinct selected name stands once at a level, in one of its three lists and in the order of
first mention (`partitions_project`): among the scalars if it is that of a field that is no
relation, under a branch if its relation expands, and among the references otherwise. The branches
of a level divide what they were expanded with in the same way, and so do all levels below
(`partitionsThroughout_project`). This is what the loop over the names leaves when it ends
(`projectWithin_partitionsThroughout`).
-/

set_option autoImplicit false
set_option relaxedAutoImplicit false

namespace SchemaPlan

/-- The names at this level. -/
def Projection.names (node : Projection) : List String :=
  node.scalars ++ node.references ++ node.nested.map (·.1)

/-- Whether the name is expanded. -/
def Treatment.isExpanded {schema : Schema} {path : List String} : Treatment schema path → Bool
  | .expand _ _ _ => true
  | _ => false

namespace Synthesis

/-- The name is that of a field of the model that is no relation; the first field of the name
counts. -/
def IsScalarName (synthesis : Synthesis) (model name : String) : Prop :=
  ∃ descriptor field, synthesis.schema.model? model = some descriptor ∧
    descriptor.field? name = some field ∧ field.isRelation = false

/-- The name is that of a relation to a single record of a declared model off the path, of which
something is left to fetch; the first field of the name counts. -/
def Expands (synthesis : Synthesis) (path : List String) (model name : String) (related : Model) :
    Prop :=
  ∃ descriptor field, synthesis.schema.model? model = some descriptor ∧
    descriptor.field? name = some field ∧ field.isList = false ∧
    field.target? = some related.name ∧ synthesis.schema.model? related.name = some related ∧
    related.name ∉ path ∧ synthesis.candidates model related ≠ []

/-- What a level holds that is built for the selected names of a model below the models on the
path. -/
structure Partitions (synthesis : Synthesis) (path : List String) (model : String)
    (selected : List String) (node : Projection) : Prop where
  model_eq : node.model = model
  /-- A selected name stands once in one of the lists, and no other name stands in them. -/
  count_names : ∀ name, node.names.count name = if name ∈ selected then 1 else 0
  scalars_inFirstOrder : InFirstOrder selected node.scalars
  references_inFirstOrder : InFirstOrder selected node.references
  nested_inFirstOrder : InFirstOrder selected (node.nested.map (·.1))
  mem_scalars_iff : ∀ name ∈ selected,
    name ∈ node.scalars ↔ synthesis.IsScalarName model name
  mem_nested_iff : ∀ name ∈ selected,
    name ∈ node.nested.map (·.1) ↔ ∃ related, synthesis.Expands path model name related

/-- The level divides the selected names, and so does every level below it with what is fetched of
its own model, and with this model on the path as well. -/
inductive PartitionsThroughout (synthesis : Synthesis) :
    List String → String → List String → Projection → Prop
  | level {path : List String} {model : String} {selected : List String} {node : Projection}
      (here : synthesis.Partitions path model selected node)
      (below : ∀ branch ∈ node.nested, ∀ related, synthesis.Expands path model branch.1 related →
        PartitionsThroughout synthesis (related.name :: path) related.name
          (synthesis.candidates model related) branch.2) :
      PartitionsThroughout synthesis path model selected node

variable {synthesis : Synthesis} {path : List String} {model name : String}
  {selected : List String}

/-! ### The treatment of a name -/

/-- A name is treated as a scalar when it is that of a field that is no relation. -/
theorem isScalar_treat_iff :
    (synthesis.treat path model name).isScalar ↔ synthesis.IsScalarName model name := by
  constructor
  · intro h
    rw [treat] at h
    split at h
    · cases h
    · next field hfield =>
      obtain ⟨descriptor, hdescriptor, hfield⟩ := Option.bind_eq_some_iff.1 hfield
      split at h
      · next htarget =>
        exact ⟨descriptor, field, hdescriptor, hfield, Field.target?_eq_none_iff.1 htarget⟩
      · -- A relation stays flat or is expanded.
        split at h
        · cases h
        · split at h
          · cases h
          · split at h
            · cases h
            · dsimp only at h
              split at h <;> cases h
  · rintro ⟨descriptor, field, hdescriptor, hfield, hrelation⟩
    obtain ⟨-, rfl⟩ := Model.mem_of_field? hfield
    rw [treat_of_target?_eq_none hdescriptor hfield (Field.target?_eq_none_iff.2 hrelation)]
    rfl

/-- A name that expands is treated so, with what is fetched below it. -/
theorem Expands.treat_eq {related : Model} (h : synthesis.Expands path model name related) :
    ∃ fresh, synthesis.treat path model name =
      .expand related.name fresh (synthesis.candidates model related) := by
  obtain ⟨descriptor, field, hdescriptor, hfield, hlist, htarget, hrelated, hpath, hcandidates⟩ := h
  have fresh : related.name ∈ synthesis.schema.names ∧ related.name ∉ path :=
    ⟨Schema.mem_names_of_model? hrelated, hpath⟩
  exact ⟨fresh, treat_eq_expand_iff.2 ⟨descriptor, field, related, hdescriptor, hfield, htarget,
    hlist, hrelated, rfl, hcandidates⟩⟩

/-- A name is expanded when it expands to some model. -/
theorem isExpanded_treat_iff : (synthesis.treat path model name).isExpanded ↔
    ∃ related, synthesis.Expands path model name related := by
  constructor
  · intro h
    cases htreat : synthesis.treat path model name with
    | expand target fresh candidates =>
      obtain ⟨descriptor, field, related, hdescriptor, hfield, htarget, hlist, hrelated, rfl,
        hcandidates⟩ := treat_eq_expand_iff.1 htreat
      obtain ⟨-, rfl⟩ := Schema.mem_of_model? hrelated
      exact ⟨related, descriptor, field, hdescriptor, hfield, hlist, htarget, hrelated, fresh.2,
        hcandidates⟩
    | _ => simp [htreat, Treatment.isExpanded] at h
  · rintro ⟨related, hexpands⟩
    obtain ⟨fresh, htreat⟩ := hexpands.treat_eq
    rw [htreat]
    rfl

/-! ### The lists of a level -/

/-- The names of the branches are the selected names that are expanded. -/
theorem map_nested_project : (synthesis.project path model selected).nested.map (·.1) =
    selected.eraseDups.filter fun name ↦ (synthesis.treat path model name).isExpanded := by
  rw [project, List.map_filterMap, ← List.filterMap_eq_filter]
  refine List.filterMap_congr fun name _ ↦ ?_
  cases htreat : synthesis.treat path model name <;>
    simp [htreat, Treatment.isExpanded, Option.guard]

/-- A name is listed once if it is selected and wanted, and otherwise never. -/
theorem count_filter_eraseDups (wanted : String → Bool) (name : String) :
    (selected.eraseDups.filter wanted).count name =
      if wanted name ∧ name ∈ selected then 1 else 0 := by
  rw [((nodup_eraseDups selected).filter wanted).count]
  simp only [List.mem_filter, List.mem_eraseDups, and_comm]

/-- The names of a level are divided among its scalars, references and branches. -/
theorem partitions_project (synthesis : Synthesis) (path : List String) (model : String)
    (selected : List String) :
    synthesis.Partitions path model selected (synthesis.project path model selected) := by
  have hscalars : (synthesis.project path model selected).scalars =
      selected.eraseDups.filter fun name ↦ (synthesis.treat path model name).isScalar := by
    rw [project]
  have hreferences : (synthesis.project path model selected).references =
      selected.eraseDups.filter fun name ↦ (synthesis.treat path model name).isFlat := by
    rw [project]
  have horder := inFirstOrder_eraseDups selected
  constructor
  case model_eq => exact project_model
  case count_names =>
    intro name
    rw [Projection.names, hscalars, hreferences, map_nested_project, List.count_append,
      List.count_append]
    simp only [count_filter_eraseDups]
    cases synthesis.treat path model name <;>
      simp [Treatment.isScalar, Treatment.isFlat, Treatment.isExpanded]
  case scalars_inFirstOrder => exact hscalars ▸ horder.filter _
  case references_inFirstOrder => exact hreferences ▸ horder.filter _
  case nested_inFirstOrder => exact map_nested_project ▸ horder.filter _
  case mem_scalars_iff =>
    intro name hname
    rw [mem_scalars_project, isScalar_treat_iff]
    exact and_iff_right hname
  case mem_nested_iff =>
    intro name hname
    rw [map_nested_project, List.mem_filter, List.mem_eraseDups, isExpanded_treat_iff]
    exact and_iff_right hname

/-! ### The levels below -/

/-- The names are divided at every level of a tree. -/
theorem partitionsThroughout_project (synthesis : Synthesis) (path : List String) (model : String)
    (selected : List String) :
    synthesis.PartitionsThroughout path model selected
      (synthesis.project path model selected) := by
  induction hcount : synthesis.schema.countOutside path using Nat.strongRecOn
    generalizing path model selected with
  | ind count ih =>
    subst hcount
    refine .level (partitions_project synthesis path model selected)
      fun branch hbranch related hexpands ↦ ?_
    -- The branch under a name has the model that the name expands into on its path as well.
    obtain ⟨-, target, fresh, names, htreat, hnode⟩ := mem_nested_project.1 hbranch
    obtain ⟨_, hexpand⟩ := hexpands.treat_eq
    rw [htreat] at hexpand
    cases hexpand
    rw [hnode]
    exact ih _ (Schema.countOutside_cons_lt fresh.1 fresh.2) _ _ _ rfl

/-- The loop over the names ends, and at every level of the tree that it leaves the names are
divided: those that were selected at the root, and below it those that were fetched of the related
model. -/
theorem projectWithin_partitionsThroughout (synthesis : Synthesis) (path : List String)
    (model : String) (selected : List String) : ∃ node,
      synthesis.project path model selected = node ∧
      synthesis.projectWithin ((synthesis.schema.names.toFinset \ path.toFinset).card + 1) path
        model selected = some node ∧
      synthesis.PartitionsThroughout path model selected node :=
  ⟨_, rfl, projectWithin_eq_some (Nat.lt_succ_self _) selected,
    partitionsThroughout_project synthesis path model selected⟩

end Synthesis

end SchemaPlan
