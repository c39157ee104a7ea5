import SchemaPlan.Proofs.NameMap
import SchemaPlan.Proofs.Projection.Partition
import SchemaPlan.Proofs.Projection.Termination

/-!
# The selection object of a synthesized projection

Under a selected name the selection object has what the slot of the name says, and nothing under any
other name (`get?_selectionMap_project`). The slot depends on the model, the name and the path
alone. So selections of one model agree where they share names, a selection of two lists of names is
the union of theirs, and neither order nor repetition of the names matters
(`selection_projectRoot_append`).
-/

set_option autoImplicit false
set_option relaxedAutoImplicit false

namespace SchemaPlan

open Json

/-! ### Selection objects as maps -/

namespace Projection

/-- The members of the selection object as they are listed. -/
def selectionMembers (node : Projection) : List (String × Value) :=
  (node.scalars ++ node.references).map (·, .bool true) ++ selectionsOfBranches node.nested

/-- The members of the selection object by name. -/
def selectionMap (node : Projection) : NameMap Value := .ofList node.selectionMembers

/-- A selection is the object of its map. -/
theorem selection_eq (node : Projection) : node.selection = .object node.selectionMap.entries := by
  cases node
  rw [selection]
  rfl

/-- A branch is selected by an object around its own selection. -/
theorem selectionsOfBranches_eq (branches : List Branch) : selectionsOfBranches branches =
    branches.map fun branch ↦ (branch.1, .object [("select", branch.2.selection)]) := by
  induction branches with
  | nil => rfl
  | cons branch rest ih => rw [selectionsOfBranches, ih, List.map_cons]

/-- The members of a selection have the names of the level. -/
theorem map_selectionMembers (node : Projection) :
    node.selectionMembers.map (·.1) = node.names := by
  rw [selectionMembers, selectionsOfBranches_eq, List.map_append, List.map_map, List.map_map, names]
  simp [Function.comp_def]

/-- Scalars and references are selected by a flag, and branches by an object around theirs. -/
theorem mem_selectionMembers {node : Projection} {name : String} {value : Value} :
    (name, value) ∈ node.selectionMembers ↔
      (name ∈ node.scalars ∨ name ∈ node.references) ∧ value = .bool true ∨
        ∃ child, (name, child) ∈ node.nested ∧ value = .object [("select", child.selection)] := by
  rw [selectionMembers, selectionsOfBranches_eq, List.mem_append, List.mem_map, List.mem_map]
  constructor
  · rintro (⟨flat, hflat, heq⟩ | ⟨⟨field, child⟩, hbranch, heq⟩)
    · cases heq
      exact .inl ⟨List.mem_append.1 hflat, rfl⟩
    · cases heq
      exact .inr ⟨child, hbranch, rfl⟩
  · rintro (⟨hflat, rfl⟩ | ⟨child, hbranch, rfl⟩)
    · exact .inl ⟨name, List.mem_append.2 hflat, rfl⟩
    · exact .inr ⟨(name, child), hbranch, rfl⟩

/-- Where names do not repeat, the map of a selection has its members. -/
theorem entries_selectionMap_perm {node : Projection} (h : node.names.Nodup) :
    node.selectionMap.entries.Perm node.selectionMembers :=
  sortEntries_perm (map_selectionMembers node ▸ h)

/-- Where names do not repeat, a selection is determined by its members. -/
theorem selection_congr {first second : Projection} (hfirst : first.names.Nodup)
    (hsecond : second.names.Nodup)
    (h : ∀ member, member ∈ first.selectionMembers ↔ member ∈ second.selectionMembers) :
    first.selection = second.selection := by
  have hentries : first.selectionMap.entries = second.selectionMap.entries := by
    refine eq_of_ascending first.selectionMap.ascending second.selectionMap.ascending
      fun member ↦ ?_
    rw [(entries_selectionMap_perm hfirst).mem_iff, (entries_selectionMap_perm hsecond).mem_iff, h]
  rw [selection_eq, selection_eq, hentries]

end Projection

/-- What the selection object has under the name of the slot. -/
def Slot.selection : Slot → Value
  | .scalar | .reference => .bool true
  | .nested node => .object [("select", node.selection)]

namespace Synthesis

variable {synthesis : Synthesis} {path : List String} {model name : String}
  {selected : List String}

/-- The members of a level are the selected names with what stands in their slots. -/
theorem mem_selectionMembers_project {value : Value} :
    (name, value) ∈ (synthesis.project path model selected).selectionMembers ↔
      name ∈ selected ∧ value = (synthesis.slot path model name).selection := by
  rw [Projection.mem_selectionMembers, mem_scalars_project, mem_references_project, slot]
  simp only [mem_nested_project]
  cases treat synthesis path model name with
  | scalar => simp [Treatment.isScalar, Treatment.isFlat, Slot.selection]
  | flat fallback => simp [Treatment.isScalar, Treatment.isFlat, Slot.selection]
  | expand target fresh candidates =>
    simp [Treatment.isScalar, Treatment.isFlat, Slot.selection, fresh]

theorem nodup_names_project : (synthesis.project path model selected).names.Nodup := by
  rw [List.nodup_iff_count_le_one]
  intro name
  rw [(partitions_project synthesis path model selected).count_names]
  split <;> omega

/-- A selection holds what stands in the slot of a selected name, and nothing else. -/
theorem get?_selectionMap_project (name : String) :
    (synthesis.project path model selected).selectionMap.get? name =
      if name ∈ selected then some (synthesis.slot path model name).selection else none := by
  have hnodup : ((synthesis.project path model selected).selectionMembers.reverse.map
      (·.1)).Nodup := by
    rw [List.map_reverse, List.nodup_reverse, Projection.map_selectionMembers]
    exact nodup_names_project
  ext value
  rw [Projection.selectionMap, NameMap.get?_ofList,
    ← @mem_iff_lookup_of_nodup _ _ (name, value) hnodup, List.mem_reverse,
    mem_selectionMembers_project]
  split <;> simp_all [eq_comm]

/-- Two selections agree on the names they have in common. -/
theorem agreesWith_selectionMap_project (first second : List String) :
    (synthesis.project path model first).selectionMap.AgreesWith
      (synthesis.project path model second).selectionMap := by
  intro name value other hvalue hother
  rw [get?_selectionMap_project, Option.ite_none_right_eq_some] at hvalue hother
  exact Option.some.inj (hvalue.2.symm.trans hother.2)

/-- What is selected together is the union of what is selected apart. -/
theorem selectionMap_project_append (first second : List String) :
    (synthesis.project path model (first ++ second)).selectionMap =
      (synthesis.project path model first).selectionMap.union
        (synthesis.project path model second).selectionMap := by
  refine NameMap.ext_get? fun name ↦ ?_
  simp only [NameMap.get?_union, get?_selectionMap_project, List.mem_append]
  by_cases hfirst : name ∈ first <;> simp [hfirst]

/-- The order and the number of mentions of names do not matter to a selection. -/
theorem selectionMap_project_congr {first second : List String}
    (h : ∀ name, name ∈ first ↔ name ∈ second) :
    (synthesis.project path model first).selectionMap =
      (synthesis.project path model second).selectionMap := by
  refine NameMap.ext_get? fun name ↦ ?_
  simp only [get?_selectionMap_project, h name]

/-- Selections of one model have the same under every name that they share, and that of two lists of
names is their union. So the selection depends on the set of the names alone, and what it has under
a name is what it has when nothing else is selected. -/
theorem selection_projectRoot_append (synthesis : Synthesis) (model : String)
    (first second : List String) : ∃ firstMap secondMap : NameMap Value,
      (synthesis.projectRoot model first).selection = .object firstMap.entries ∧
      (synthesis.projectRoot model second).selection = .object secondMap.entries ∧
      firstMap.AgreesWith secondMap ∧
      (synthesis.projectRoot model (first ++ second)).selection =
        .object (firstMap.union secondMap).entries ∧
      ((∀ name, name ∈ first ↔ name ∈ second) →
        (synthesis.projectRoot model first).selection =
          (synthesis.projectRoot model second).selection) ∧
      ∀ name ∈ first,
        firstMap.get? name = (synthesis.projectRoot model [name]).selection.member? name := by
  refine ⟨(synthesis.projectRoot model first).selectionMap,
    (synthesis.projectRoot model second).selectionMap, Projection.selection_eq _,
    Projection.selection_eq _, agreesWith_selectionMap_project first second, ?_, ?_, ?_⟩
  · rw [Projection.selection_eq, projectRoot, selectionMap_project_append]
    rfl
  · intro hsame
    rw [Projection.selection_eq, Projection.selection_eq, projectRoot,
      selectionMap_project_congr hsame]
    rfl
  · intro name hname
    have halone : (synthesis.projectRoot model [name]).selection.member? name =
        (synthesis.projectRoot model [name]).selectionMap.get? name := by
      rw [Projection.selection_eq]
      rfl
    rw [halone, projectRoot, projectRoot, get?_selectionMap_project, get?_selectionMap_project,
      if_pos hname, if_pos (List.mem_singleton_self name)]

end Synthesis

end SchemaPlan
