import Mathlib.Data.Finset.Card
import Mathlib.Data.Finset.Dedup
import SchemaPlan.Proofs.FirstMention
import SchemaPlan.Proofs.Projection.Level
import SchemaPlan.Proofs.Projection.Path
import SchemaPlan.Proofs.Schema.Names

/-!
# Synthesis ends on every schema

Synthesis takes up the selected names one after another and calls itself for every relation that it
expands. `projectWithin` is this loop with nothing to stop it but a bound on how deep the calls
nest. The bound is never met when it exceeds the number of declared models that are not on the path
(`projectWithin_eq_some`): a call puts one of them on the path. For the same reason the models on a
way down the tree differ, and those below the root are declared (`exists_below_of_path`), so the
tree is no deeper than there are declared models beside its root.
-/

set_option autoImplicit false
set_option relaxedAutoImplicit false

namespace SchemaPlan

/-! ### The loop over the names of a level -/

/-- What a level holds under a name. -/
inductive Slot
  | scalar
  | reference
  | nested (node : Projection)

/-- Fills the slot of a name, unless the level holds the name already. -/
def Projection.push (node : Projection) (name : String) (slot : Slot) : Projection :=
  if node.contains name then node
  else
    match slot with
    | .scalar => { node with scalars := node.scalars ++ [name] }
    | .reference => { node with references := node.references ++ [name] }
    | .nested child => { node with nested := node.nested ++ [(name, child)] }

/-- The slot of a name, where `project?` gives the projections of related models. -/
def Treatment.slot? {schema : Schema} {path : List String}
    (project? : List String → String → List String → Option Projection) :
    Treatment schema path → Option Slot
  | .scalar => some .scalar
  | .flat _ => some .reference
  | .expand target _ candidates => (project? (target :: path) target candidates).map .nested

namespace Synthesis

variable {synthesis : Synthesis} {path : List String} {model : String}

/-- The projection of a model for the selected names, put together name by name. There is none when
more than `calls` calls are nested. -/
def projectWithin (synthesis : Synthesis) : Nat → List String → String → List String →
    Option Projection
  | 0, _, _, _ => none
  | calls + 1, path, model, selected =>
    selected.foldlM (fun node name ↦
      ((synthesis.treat path model name).slot? (synthesis.projectWithin calls)).map
        (node.push name)) ⟨model, [], [], []⟩

/-- The slot of a name in the projection of a model. -/
def slot (synthesis : Synthesis) (path : List String) (model name : String) : Slot :=
  match synthesis.treat path model name with
  | .scalar => .scalar
  | .flat _ => .reference
  | .expand target _ candidates => .nested (synthesis.project (target :: path) target candidates)

/-- A name more fills its slot. -/
theorem push_project (selected : List String) (name : String) :
    (synthesis.project path model selected).push name (synthesis.slot path model name) =
      synthesis.project path model (selected ++ [name]) := by
  unfold Projection.push
  by_cases hname : name ∈ selected
  · rw [if_pos (contains_project.2 hname), project, project, eraseDups_concat_of_mem hname]
  · rw [if_neg fun h ↦ hname (contains_project.1 h), project, project,
      eraseDups_concat_of_not_mem hname, slot]
    cases htreat : synthesis.treat path model name <;>
      simp [List.filter_append, List.filterMap_append, htreat, Treatment.isScalar,
        Treatment.isFlat]

/-- When every slot can be filled, the loop fills the level. -/
theorem foldlM_push_project {slot? : String → Option Slot}
    (h : ∀ name, slot? name = some (synthesis.slot path model name))
    (taken rest : List String) :
    rest.foldlM (fun node name ↦ (slot? name).map (node.push name))
        (synthesis.project path model taken) =
      some (synthesis.project path model (taken ++ rest)) := by
  induction rest generalizing taken with
  | nil => simp
  | cons name rest ih =>
    rw [List.foldlM_cons, h name, Option.map_some, push_project]
    simpa using ih (taken ++ [name])

/-- The loop ends: calls nest no deeper than there are declared models off the path. -/
theorem projectWithin_eq_some {calls : Nat}
    (h : (synthesis.schema.names.toFinset \ path.toFinset).card < calls) (selected : List String) :
    synthesis.projectWithin calls path model selected =
      some (synthesis.project path model selected) := by
  induction calls generalizing path model selected with
  | zero => omega
  | succ calls ih =>
    have hslot (name : String) :
        (synthesis.treat path model name).slot? (synthesis.projectWithin calls) =
          some (synthesis.slot path model name) := by
      rw [slot]
      cases htreat : synthesis.treat path model name with
      | scalar => rfl
      | flat fallback => rfl
      | expand target fresh candidates =>
        -- The call has the declared model `target` on its path, which was off it before.
        have hlt : (synthesis.schema.names.toFinset \ (target :: path).toFinset).card <
            (synthesis.schema.names.toFinset \ path.toFinset).card := by
          refine Finset.card_lt_card (Finset.ssubset_iff_of_subset ?_ |>.2 ⟨target, ?_, ?_⟩)
          · exact Finset.sdiff_subset_sdiff subset_rfl (by simp)
          · simpa using fresh
          · simp
        rw [Treatment.slot?, ih (by omega)]
        rfl
    have hnil : synthesis.project path model [] = ⟨model, [], [], []⟩ := by
      rw [project]
      rfl
    rw [projectWithin, ← hnil, foldlM_push_project hslot, List.nil_append]

/-- What the calls give, if enough of them may be nested, is the projection. -/
theorem projectRoot_eq_of_projectWithin (calls : Nat) {root : String} {selected : List String}
    {tree : Projection} (h : (synthesis.schema.names.toFinset \ [root].toFinset).card < calls)
    (htree : synthesis.projectWithin calls [root] root selected = some tree) :
    synthesis.projectRoot root selected = tree := by
  rw [projectWithin_eq_some h] at htree
  exact Option.some.inj htree

/-! ### Ways down a synthesized projection -/

/-- Below the root, the levels on a way down are of declared models that differ from each other and
are not on the path. -/
theorem exists_below_of_path {selected : List String} {levels : List Projection}
    (h : (synthesis.project path model selected).Path levels) :
    ∃ below, levels = synthesis.project path model selected :: below ∧
      (below.map (·.model)).Nodup ∧
        ∀ node ∈ below, node.model ∈ synthesis.schema.names ∧ node.model ∉ path := by
  generalize htree : synthesis.project path model selected = tree at h ⊢
  induction h generalizing path model selected with
  | here node => exact ⟨[], rfl, List.nodup_nil, by simp⟩
  | @step node branch levels hbranch _ ih =>
    subst htree
    obtain ⟨-, target, fresh, candidates, -, hnode⟩ := mem_nested_project.1 hbranch
    -- What is further down is off `target :: path`, so it repeats neither `target` nor the path.
    obtain ⟨below, rfl, hnodup, hbelow⟩ := ih hnode.symm
    have hmodel : branch.2.model = target := by rw [hnode, project_model]
    refine ⟨branch.2 :: below, rfl, ?_, ?_⟩
    · rw [List.map_cons, List.nodup_cons, hmodel]
      refine ⟨fun hmem ↦ ?_, hnodup⟩
      obtain ⟨node, hmem, heq⟩ := List.mem_map.1 hmem
      exact (hbelow node hmem).2 (heq ▸ List.mem_cons_self)
    · rintro node (_ | ⟨_, hmem⟩)
      · exact hmodel ▸ fresh
      · obtain ⟨hdeclared, hoff⟩ := hbelow node hmem
        exact ⟨hdeclared, fun hpath ↦ hoff (List.mem_cons_of_mem target hpath)⟩

/-- Nothing is expanded at a model that is not declared. -/
theorem nested_project_of_not_mem (hmodel : model ∉ synthesis.schema.names)
    (selected : List String) : (synthesis.project path model selected).nested = [] := by
  have hnone : synthesis.schema.model? model = none := by
    rwa [← Option.not_isSome_iff_eq_none, Schema.isSome_model?_iff]
  rw [List.eq_nil_iff_forall_not_mem]
  intro branch hbranch
  obtain ⟨-, target, fresh, candidates, htreat, -⟩ := mem_nested_project.1 hbranch
  rw [treat] at htreat
  simp [hnone] at htreat

/-- A tree is no deeper than there are declared models outside of the path. -/
theorem depth_project_le (selected : List String) :
    (synthesis.project path model selected).depth ≤
      (synthesis.schema.names.toFinset \ path.toFinset).card := by
  obtain ⟨levels, hpath, hlength⟩ :=
    Projection.exists_path_length (synthesis.project path model selected)
  obtain ⟨below, rfl, hnodup, hbelow⟩ := exists_below_of_path hpath
  have hsubset : (below.map (·.model)).toFinset ⊆
      synthesis.schema.names.toFinset \ path.toFinset := by
    intro name hname
    obtain ⟨node, hnode, rfl⟩ := List.mem_map.1 (List.mem_toFinset.1 hname)
    simpa using hbelow node hnode
  have hcard := Finset.card_le_card hsubset
  rw [List.toFinset_card_of_nodup hnodup, List.length_map] at hcard
  rw [List.length_cons] at hlength
  omega

/-- From any root, on any schema and graph and with any names configured: the loop ends, the models
on a way down the tree differ, those below the root are declared, and the tree has no more levels
below its root than there are declared models beside it, none if the root is not declared. -/
theorem projectRoot_ends_acyclic (synthesis : Synthesis) (root : String) (selected : List String) :
    synthesis.projectWithin ((synthesis.schema.names.toFinset.erase root).card + 1) [root] root
        selected = some (synthesis.projectRoot root selected) ∧
      (∀ levels, (synthesis.projectRoot root selected).Path levels →
        (levels.map (·.model)).Nodup ∧
          ∀ node ∈ levels.tail, node.model ∈ synthesis.schema.names) ∧
      (synthesis.projectRoot root selected).depth ≤
        (synthesis.schema.names.toFinset.erase root).card ∧
      (root ∉ synthesis.schema.names → (synthesis.projectRoot root selected).depth = 0) := by
  have hothers : synthesis.schema.names.toFinset \ [root].toFinset =
      synthesis.schema.names.toFinset.erase root := by
    simp [Finset.sdiff_singleton_eq_erase]
  rw [projectRoot, ← hothers]
  refine ⟨projectWithin_eq_some (Nat.lt_succ_self _) selected, fun levels hpath ↦ ?_,
    depth_project_le selected, fun hroot ↦ ?_⟩
  · obtain ⟨below, rfl, hnodup, hbelow⟩ := exists_below_of_path hpath
    refine ⟨?_, fun node hnode ↦ (hbelow node hnode).1⟩
    rw [List.map_cons, List.nodup_cons, project_model]
    refine ⟨fun hmem ↦ ?_, hnodup⟩
    obtain ⟨node, hnode, heq⟩ := List.mem_map.1 hmem
    exact (hbelow node hnode).2 (heq ▸ List.mem_singleton_self _)
  · rw [Projection.depth_eq, nested_project_of_not_mem hroot, Projection.depthOfBranches]

end Synthesis

end SchemaPlan
