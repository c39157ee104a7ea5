import SchemaPlan.Projection.Basic

/-!
# Ways down a projection

A way down starts at a projection and goes from each level to one of its branches. One way down has
as many steps as the projection is deep (`exists_path_length`). The levels on the ways down are the
nodes of the projection (`HasNode`).
-/

set_option autoImplicit false
set_option relaxedAutoImplicit false

namespace SchemaPlan.Projection

/-- The levels on a way down from a projection, which is the first of them. -/
inductive Path : Projection → List Projection → Prop
  | here (node : Projection) : Path node [node]
  | step {node : Projection} {branch : Branch} {levels : List Projection}
      (hbranch : branch ∈ node.nested) (hlevels : Path branch.2 levels) : Path node (node :: levels)

theorem depth_eq (node : Projection) : node.depth = depthOfBranches node.nested := by
  cases node
  rw [depth]

/-- A branch is less deep than the level that holds it. -/
theorem depth_lt_depthOfBranches {branches : List Branch} {branch : Branch}
    (h : branch ∈ branches) : branch.2.depth < depthOfBranches branches := by
  induction branches with
  | nil => simp at h
  | cons first rest ih =>
    rw [depthOfBranches]
    rcases List.mem_cons.1 h with rfl | h
    · omega
    · have hrest := ih h
      omega

/-- The depth of a level with branches is one more than that of its deepest branch. -/
theorem exists_depthOfBranches_eq {branches : List Branch} (h : depthOfBranches branches ≠ 0) :
    ∃ branch ∈ branches, depthOfBranches branches = branch.2.depth + 1 := by
  induction branches with
  | nil => exact absurd (by rw [depthOfBranches]) h
  | cons first rest ih =>
    rw [depthOfBranches] at h ⊢
    by_cases hle : depthOfBranches rest ≤ first.2.depth + 1
    · exact ⟨first, List.mem_cons_self, by omega⟩
    · obtain ⟨branch, hbranch, heq⟩ := ih (by omega)
      exact ⟨branch, List.mem_cons_of_mem _ hbranch, by omega⟩

/-- Some way down has as many steps as the projection is deep. -/
theorem exists_path_length (node : Projection) :
    ∃ levels, node.Path levels ∧ levels.length = node.depth + 1 := by
  induction hdepth : node.depth generalizing node with
  | zero => exact ⟨[node], .here node, rfl⟩
  | succ depth ih =>
    rw [depth_eq] at hdepth
    have hne : depthOfBranches node.nested ≠ 0 := by omega
    obtain ⟨branch, hbranch, heq⟩ := exists_depthOfBranches_eq hne
    obtain ⟨levels, hlevels, hlength⟩ := ih branch.2 (by omega)
    exact ⟨node :: levels, .step hbranch hlevels, by rw [List.length_cons, hlength]⟩

/-! ### Nodes -/

/-- The projection is a level on a way down from the tree: the tree itself or a level below it. -/
def HasNode (tree node : Projection) : Prop := ∃ levels, tree.Path levels ∧ node ∈ levels

theorem hasNode_self (tree : Projection) : tree.HasNode tree :=
  ⟨[tree], .here tree, List.mem_singleton_self tree⟩

/-- The nodes of a tree are its root and the nodes of its branches. -/
theorem hasNode_iff {tree node : Projection} :
    tree.HasNode node ↔ node = tree ∨ ∃ branch ∈ tree.nested, branch.2.HasNode node := by
  constructor
  · rintro ⟨levels, hlevels, hnode⟩
    cases hlevels with
    | here => exact .inl (List.mem_singleton.1 hnode)
    | step hbranch hbelow =>
      rcases List.mem_cons.1 hnode with rfl | hnode
      · exact .inl rfl
      · exact .inr ⟨_, hbranch, _, hbelow, hnode⟩
  · rintro (rfl | ⟨branch, hbranch, levels, hlevels, hnode⟩)
    · exact hasNode_self node
    · exact ⟨tree :: levels, .step hbranch hlevels, List.mem_cons_of_mem tree hnode⟩

theorem isEmpty_eq_false_of_contains {node : Projection} {name : String} (h : node.contains name) :
    node.isEmpty = false := by
  simp only [contains, Bool.or_eq_true, List.contains_iff_mem, List.any_eq_true] at h
  rw [isEmpty, beq_eq_false_iff_ne, size]
  rcases h with (hscalar | hreference) | ⟨branch, hbranch, -⟩
  · have hpos := List.length_pos_of_mem hscalar
    omega
  · have hpos := List.length_pos_of_mem hreference
    omega
  · have hpos := List.length_pos_of_mem hbranch
    omega

end SchemaPlan.Projection
