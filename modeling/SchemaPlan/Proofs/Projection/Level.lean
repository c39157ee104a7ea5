import SchemaPlan.Projection.Synthesis
import SchemaPlan.Proofs.FirstMention
import SchemaPlan.Proofs.Schema.Names

/-!
# One level of a synthesized projection

Every selected name stands in exactly one list of the level, the one that its treatment tells, and
no other name stands in it (`contains_project`). A branch leads to the projection of a declared
model that is not on the path (`mem_nested_project`). Where a model has distinct field names, its
plain fields make a level of scalars alone (`project_plainNames`).
-/

set_option autoImplicit false
set_option relaxedAutoImplicit false

namespace SchemaPlan.Synthesis

variable {synthesis : Synthesis} {path : List String} {model : String} {selected : List String}
  {name : String}

@[simp] theorem project_model : (synthesis.project path model selected).model = model := by
  rw [project]

/-- The scalars of a level are the selected names that are treated so. -/
theorem mem_scalars_project : name ∈ (synthesis.project path model selected).scalars ↔
    name ∈ selected ∧ (synthesis.treat path model name).isScalar := by
  rw [project, List.mem_filter, List.mem_eraseDups]

/-- The references of a level are the selected names that are kept flat. -/
theorem mem_references_project : name ∈ (synthesis.project path model selected).references ↔
    name ∈ selected ∧ (synthesis.treat path model name).isFlat := by
  rw [project, List.mem_filter, List.mem_eraseDups]

/-- The branches of a level are the trees below the selected names that are expanded. -/
theorem mem_nested_project {branch : Branch} :
    branch ∈ (synthesis.project path model selected).nested ↔
      branch.1 ∈ selected ∧ ∃ target fresh candidates,
        synthesis.treat path model branch.1 = .expand target fresh candidates ∧
          branch.2 = synthesis.project (target :: path) target candidates := by
  rw [project, List.mem_filterMap]
  constructor
  · rintro ⟨name, hname, hbranch⟩
    split at hbranch
    · next target fresh candidates htreat =>
      obtain rfl := Option.some.inj hbranch
      exact ⟨List.mem_eraseDups.1 hname, target, fresh, candidates, htreat, rfl⟩
    · exact absurd hbranch (by simp)
  · rintro ⟨hname, target, fresh, candidates, htreat, hnode⟩
    refine ⟨branch.1, List.mem_eraseDups.2 hname, ?_⟩
    rw [htreat]
    exact congrArg some (Prod.ext rfl hnode.symm)

/-- A level holds exactly the selected names. -/
theorem contains_project :
    (synthesis.project path model selected).contains name ↔ name ∈ selected := by
  simp only [Projection.contains, Bool.or_eq_true, List.contains_iff_mem, List.any_eq_true,
    beq_iff_eq, mem_scalars_project, mem_references_project, mem_nested_project]
  constructor
  · rintro ((⟨hname, -⟩ | ⟨hname, -⟩) | ⟨branch, ⟨hname, -⟩, rfl⟩) <;> exact hname
  · intro hname
    cases htreat : synthesis.treat path model name with
    | scalar => exact .inl (.inl ⟨hname, rfl⟩)
    | flat fallback => exact .inl (.inr ⟨hname, rfl⟩)
    | expand target fresh candidates =>
      exact .inr ⟨(name, synthesis.project (target :: path) target candidates),
        ⟨hname, target, fresh, candidates, htreat, rfl⟩, rfl⟩

/-! ### Levels of scalars -/

/-- A level of scalars holds the selected names as they are. -/
theorem project_of_forall_isScalar (hnodup : selected.Nodup)
    (hscalar : ∀ name ∈ selected, (synthesis.treat path model name).isScalar) :
    synthesis.project path model selected = ⟨model, selected, [], []⟩ := by
  have hflat : ∀ name ∈ selected, ¬(synthesis.treat path model name).isFlat := by
    intro name hname hflat
    have hkind := hscalar name hname
    cases htreat : synthesis.treat path model name <;>
      simp_all [Treatment.isScalar, Treatment.isFlat]
  rw [project, eraseDups_eq_self hnodup, List.filter_eq_self.2 hscalar,
    List.filter_eq_nil_iff.2 hflat, Projection.mk.injEq]
  refine ⟨rfl, rfl, rfl, List.filterMap_eq_nil_iff.2 fun name hname ↦ ?_⟩
  split
  · next target fresh candidates htreat =>
    have hkind := hscalar name hname
    simp [htreat, Treatment.isScalar] at hkind
  · rfl

theorem treat_of_target?_eq_none {descriptor : Model} {field : Field}
    (hmodel : synthesis.schema.model? model = some descriptor)
    (hfield : descriptor.field? field.name = some field) (htarget : field.target? = none) :
    synthesis.treat path model field.name = .scalar := by
  rw [treat, hmodel, Option.bind_some, hfield]
  simp [htarget]

/-- The plain fields of a model make a level of scalars. -/
theorem project_plainNames {descriptor : Model}
    (hmodel : synthesis.schema.model? model = some descriptor)
    (hnodup : (descriptor.fields.map (·.name)).Nodup) :
    synthesis.project path model descriptor.plainNames =
      ⟨model, descriptor.plainNames, [], []⟩ := by
  refine project_of_forall_isScalar (hnodup.sublist (List.filter_sublist.map _)) ?_
  intro name hname
  obtain ⟨field, hmem, rfl⟩ := List.mem_map.1 hname
  obtain ⟨hfield, hplain⟩ := List.mem_filter.1 hmem
  have htarget := Field.target?_eq_none_of_isPlain hplain
  rw [treat_of_target?_eq_none hmodel (Model.field?_of_mem hnodup hfield) htarget]
  rfl

end SchemaPlan.Synthesis
