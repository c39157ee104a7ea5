import SchemaPlan.Proofs.Projection.Selection
import SchemaPlan.Proofs.Projection.WellFormed

/-!
# Selection objects lose nothing

The names of a level differ, so none of them takes the place of another in the selection object: the
object has one member for each name (`exists_rendersAs`). A branch adds two objects, its own and
that of the level it leads to, so of the objects of a tree twice as many stand one inside another as
the tree has levels below its root, and one more (`objectDepth_selection`). Both hold at every level
of a synthesized projection, and no level below the root is empty
(`selection_projectRoot_lossless`).
-/

set_option autoImplicit false
set_option relaxedAutoImplicit false

namespace SchemaPlan

open Json

/-! ### Objects inside one another -/

namespace Json.Value

mutual

/-- The greatest number of objects that stand one inside another. -/
def objectDepth : Value → Nat
  | .null | .bool _ | .number _ | .string _ => 0
  | .array items => objectDepthOfItems items
  | .object members => objectDepthOfMembers members + 1

/-- The same for the items of an array. -/
def objectDepthOfItems : List Value → Nat
  | [] => 0
  | item :: rest => max item.objectDepth (objectDepthOfItems rest)

/-- The same for the members of an object. -/
def objectDepthOfMembers : List (String × Value) → Nat
  | [] => 0
  | (_, value) :: rest => max value.objectDepth (objectDepthOfMembers rest)

end

/-- The order of members does not matter to how deep the objects nest. -/
theorem objectDepthOfMembers_perm {members others : List (String × Value)}
    (h : members.Perm others) : objectDepthOfMembers members = objectDepthOfMembers others := by
  induction h with
  | nil => rfl
  | cons member _ ih => rw [objectDepthOfMembers, objectDepthOfMembers, ih]
  | swap first second rest =>
    simp only [objectDepthOfMembers]
    exact Nat.max_left_comm _ _ _
  | trans _ _ ihfirst ihsecond => exact ihfirst.trans ihsecond

/-- Flags do not make the objects nest deeper. -/
theorem objectDepthOfMembers_flags_append (names : List String) (members : List (String × Value)) :
    objectDepthOfMembers (names.map (·, .bool true) ++ members) = objectDepthOfMembers members := by
  induction names with
  | nil => rfl
  | cons name rest ih =>
    rw [List.map_cons, List.cons_append, objectDepthOfMembers, ih, objectDepth, Nat.zero_max]

end Json.Value

namespace Projection

open Value

/-! ### Trees whose levels have distinct names -/

/-- What the selection object of a level holds: under each name its entry, and nothing else. -/
structure RendersAs (node : Projection) (members : List (String × Value)) : Prop where
  selection_eq : node.selection = .object members
  nodup_keys : (members.map (·.1)).Nodup
  length_eq : members.length = node.size
  mem_iff : ∀ name value, (name, value) ∈ members ↔
    (name ∈ node.scalars ∨ name ∈ node.references) ∧ value = .bool true ∨
      ∃ child, (name, child) ∈ node.nested ∧ value = .object [("select", child.selection)]

/-- The size of a level is the number of its names. -/
theorem length_names (node : Projection) : node.names.length = node.size := by
  rw [names, size, List.length_append, List.length_append, List.length_map]

/-- A level of distinct names renders as an object with one member for each of them. -/
theorem exists_rendersAs {node : Projection} (h : node.names.Nodup) :
    ∃ members, node.RendersAs members := by
  have hperm := entries_selectionMap_perm h
  refine ⟨node.selectionMap.entries, ?_⟩
  constructor
  case selection_eq => exact selection_eq node
  case nodup_keys => exact node.selectionMap.keys_nodup
  case length_eq =>
    rw [hperm.length_eq, ← length_names, ← map_selectionMembers, List.length_map]
  case mem_iff =>
    intro name value
    rw [hperm.mem_iff, mem_selectionMembers]

theorem HasNode.of_nested {node level : Projection} {branch : Branch}
    (hbranch : branch ∈ node.nested) (h : branch.2.HasNode level) : node.HasNode level := by
  obtain ⟨levels, hlevels, hlevel⟩ := h
  exact ⟨node :: levels, .step hbranch hlevels, List.mem_cons_of_mem node hlevel⟩

/-- The objects that select branches nest two deep for every level of them. -/
theorem objectDepthOfMembers_selectionsOfBranches {branches : List Branch}
    (h : ∀ branch ∈ branches, branch.2.selection.objectDepth = 2 * branch.2.depth + 1) :
    objectDepthOfMembers (selectionsOfBranches branches) = 2 * depthOfBranches branches := by
  induction branches with
  | nil => rfl
  | cons branch rest ih =>
    obtain ⟨hbranch, hrest⟩ := List.forall_mem_cons.1 h
    have hentry : (object [("select", branch.2.selection)]).objectDepth =
        2 * (branch.2.depth + 1) := by
      rw [objectDepth, objectDepthOfMembers, objectDepthOfMembers, hbranch]
      omega
    rw [selectionsOfBranches, objectDepthOfMembers, hentry, ih hrest, depthOfBranches]
    omega

/-- The objects nest once for the root and twice more for every level below it. -/
theorem objectDepth_selection {node : Projection}
    (h : ∀ level, node.HasNode level → level.names.Nodup) :
    node.selection.objectDepth = 2 * node.depth + 1 := by
  induction hdepth : node.depth using Nat.strong_induction_on generalizing node with
  | h depth ih =>
    subst hdepth
    have hbranches : ∀ branch ∈ node.nested,
        branch.2.selection.objectDepth = 2 * branch.2.depth + 1 := fun branch hbranch ↦
      ih _ (depth_eq node ▸ depth_lt_depthOfBranches hbranch)
        (fun level hlevel ↦ h level (.of_nested hbranch hlevel)) rfl
    have hperm := entries_selectionMap_perm (h node (hasNode_self node))
    rw [selection_eq, objectDepth, objectDepthOfMembers_perm hperm, selectionMembers,
      objectDepthOfMembers_flags_append, objectDepthOfMembers_selectionsOfBranches hbranches,
      ← depth_eq]

end Projection

/-! ### Synthesized trees -/

namespace Synthesis

variable {synthesis : Synthesis} {path : List String} {model root : String}
  {selected : List String} {node : Projection}

/-- No level of a synthesized tree repeats a name. -/
theorem nodup_names_of_hasNode (hmodel : model ∈ path)
    (h : (synthesis.project path model selected).HasNode node) : node.names.Nodup := by
  obtain ⟨way, place, names, -, rfl⟩ := exists_project_of_hasNode hmodel h
  exact nodup_names_project

/-- Below a relation that is expanded there is something to select. -/
theorem exists_selection_eq_cons {branch : Branch}
    (h : branch ∈ (synthesis.project path model selected).nested) :
    ∃ first rest, branch.2.selection = .object (first :: rest) := by
  obtain ⟨-, target, fresh, names, htreat, hnode⟩ := mem_nested_project.1 h
  obtain ⟨-, -, -, -, -, -, -, -, -, hnames⟩ := treat_eq_expand_iff.1 htreat
  obtain ⟨name, hname⟩ := List.exists_mem_of_ne_nil names hnames
  have hempty : branch.2.isEmpty = false := by
    rw [hnode]
    exact Projection.isEmpty_eq_false_of_contains (contains_project.2 hname)
  have hnodup : branch.2.names.Nodup := hnode ▸ nodup_names_project
  obtain ⟨members, hmembers⟩ := Projection.exists_rendersAs hnodup
  rw [Projection.isEmpty, ← hmembers.length_eq, beq_eq_false_iff_ne] at hempty
  obtain ⟨first, rest, rfl⟩ := List.exists_cons_of_length_pos (Nat.pos_of_ne_zero hempty)
  exact ⟨first, rest, hmembers.selection_eq⟩

/-- At every level of a synthesized projection the selection object has a member for each name and
no other, the levels below the root are not empty, and of the objects twice as many stand one inside
another as there are levels below, and one more. -/
theorem selection_projectRoot_lossless
    (hnode : (synthesis.projectRoot root selected).HasNode node) :
    (∃ members, node.RendersAs members) ∧
      (∀ branch ∈ node.nested, ∃ first rest, branch.2.selection = .object (first :: rest)) ∧
      node.selection.objectDepth = 2 * node.depth + 1 := by
  obtain ⟨path, model, names, hmodel, rfl⟩ :=
    exists_project_of_hasNode (List.mem_singleton_self root) hnode
  refine ⟨Projection.exists_rendersAs nodup_names_project,
    fun branch hbranch ↦ exists_selection_eq_cons hbranch, ?_⟩
  exact Projection.objectDepth_selection fun level hlevel ↦ nodup_names_of_hasNode hmodel hlevel

/-- The tree has two levels below its root, and of the objects five stand one inside another. -/
theorem selection_projectRoot_lossless_delivery :
    ∃ tree, deliverySynthesis.projectRoot "Order" ["id", "customer", "id"] = tree ∧
      (tree.HasNode tree ∧ (∃ members, tree.RendersAs members) ∧
        (∃ first rest, customerBranch.2.selection = .object (first :: rest)) ∧
        tree.selection.objectDepth = 2 * tree.depth + 1 ∧ tree.depth = 2) ∧
      tree.HasNode customerBranch.2 ∧ (∃ members, customerBranch.2.RendersAs members) ∧
        (∃ first rest, cityBranch.2.selection = .object (first :: rest)) ∧
        customerBranch.2.selection.objectDepth = 2 * customerBranch.2.depth + 1 := by
  have htree : deliverySynthesis.projectRoot "Order" ["id", "customer", "id"] =
      ⟨"Order", ["id"], [], [customerBranch]⟩ := projectRoot_eq_of_projectWithin 3 (by decide) rfl
  have hcustomer : customerBranch ∈
      (deliverySynthesis.projectRoot "Order" ["id", "customer", "id"]).nested := by
    rw [htree]
    exact List.mem_singleton_self customerBranch
  have hroot := Projection.hasNode_self
    (deliverySynthesis.projectRoot "Order" ["id", "customer", "id"])
  have hbelow := Projection.HasNode.of_nested hcustomer (Projection.hasNode_self customerBranch.2)
  obtain ⟨hmembers, hbranches, hdepth⟩ := selection_projectRoot_lossless hroot
  obtain ⟨hbelowMembers, hbelowBranches, hbelowDepth⟩ := selection_projectRoot_lossless hbelow
  have htwo : (deliverySynthesis.projectRoot "Order" ["id", "customer", "id"]).depth = 2 := by
    rw [htree]
    rfl
  exact ⟨_, rfl, ⟨hroot, hmembers, hbranches customerBranch hcustomer, hdepth, htwo⟩, hbelow,
    hbelowMembers, hbelowBranches cityBranch (List.mem_singleton_self cityBranch), hbelowDepth⟩

end Synthesis

end SchemaPlan
