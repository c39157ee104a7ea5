import SchemaPlan.Proofs.Projection.Agreement
import SchemaPlan.Proofs.Projection.Selection
import SchemaPlan.Proofs.Projection.WellFormed

/-!
# Projections cut at the models on the path

A path that holds more models lets synthesis expand less, and it does nothing else: the slot of a
name changes where its relation leads to one of the further models, and there it becomes a
reference (`selection_slot_eq_cutAt`). So a projection below a path selects what the projection of
the same model with nothing above it selects, with every branch to a model of the path taken as a
reference, at whatever depth it stands (`selection_project_eq_cutAt`).
-/

set_option autoImplicit false
set_option relaxedAutoImplicit false

namespace SchemaPlan

open Json

/-! ### Cutting a tree -/

namespace Projection

mutual

/-- The projection with every branch that leads to one of the models, on this level and on all below
it, taken as a reference. -/
def cutAt (models : List String) : Projection → Projection
  | ⟨model, scalars, references, nested⟩ =>
    ⟨model, scalars, references ++ (nested.filter fun branch ↦ branch.2.model ∈ models).map (·.1),
      cutBranches models nested⟩

/-- The branches that lead to none of the models, cut further down. -/
def cutBranches (models : List String) : List (String × Projection) → List (String × Projection)
  | [] => []
  | (name, node) :: rest =>
    if node.model ∈ models then cutBranches models rest
    else (name, node.cutAt models) :: cutBranches models rest

end

end Projection

/-- What the slot holds when the tree is cut at the models. -/
def Slot.cutAt (models : List String) : Slot → Slot
  | .scalar => .scalar
  | .reference => .reference
  | .nested node => if node.model ∈ models then .reference else .nested (node.cutAt models)

namespace Projection

variable {models : List String} {name : String}

/-- Cutting a level keeps its names flat that lead to the models. -/
theorem cutAt_eq (node : Projection) : node.cutAt models =
    ⟨node.model, node.scalars,
      node.references ++ (node.nested.filter fun branch ↦ branch.2.model ∈ models).map (·.1),
      cutBranches models node.nested⟩ := by
  cases node
  rw [cutAt]

/-- Cutting branches drops those that lead to the models and cuts the others. -/
theorem cutBranches_eq (branches : List Branch) : cutBranches models branches =
    (branches.filter fun branch ↦ branch.2.model ∉ models).map fun branch ↦
      (branch.1, branch.2.cutAt models) := by
  induction branches with
  | nil => rfl
  | cons branch rest ih =>
    rw [cutBranches, ih]
    by_cases hmodel : branch.2.model ∈ models
    · rw [if_pos hmodel, List.filter_cons_of_neg (by simpa using hmodel)]
    · rw [if_neg hmodel, List.filter_cons_of_pos (by simpa using hmodel), List.map_cons]

/-- No name is lost or added. -/
theorem names_cutAt_perm (node : Projection) : (node.cutAt models).names.Perm node.names := by
  have hsplit := (List.filter_append_perm (fun branch : Branch ↦ decide (branch.2.model ∈ models))
    node.nested).map (·.1)
  rw [List.map_append] at hsplit
  rw [cutAt_eq, names, names, cutBranches_eq, List.map_map]
  simpa [Function.comp_def] using (hsplit.append_left node.references).append_left node.scalars

/-- What is kept flat after cutting was flat before, or a branch that leads to the models. -/
theorem mem_references_cutAt {node : Projection} : name ∈ (node.cutAt models).references ↔
    name ∈ node.references ∨ ∃ child, (name, child) ∈ node.nested ∧ child.model ∈ models := by
  simp [cutAt_eq]

/-- The branches after cutting are those that do not lead to the models, cut themselves. -/
theorem mem_nested_cutAt {node child : Projection} : (name, child) ∈ (node.cutAt models).nested ↔
    ∃ whole, (name, whole) ∈ node.nested ∧ whole.model ∉ models ∧ child = whole.cutAt models := by
  rw [cutAt_eq, cutBranches_eq, List.mem_map]
  constructor
  · rintro ⟨branch, hbranch, heq⟩
    cases heq
    obtain ⟨hbranch, hmodel⟩ := List.mem_filter.1 hbranch
    exact ⟨branch.2, hbranch, of_decide_eq_true hmodel, rfl⟩
  · rintro ⟨whole, hbranch, hmodel, rfl⟩
    exact ⟨(name, whole), List.mem_filter.2 ⟨hbranch, decide_eq_true hmodel⟩, rfl⟩

/-- Cutting changes what a selection holds under the names of branches. -/
theorem mem_selectionMembers_cutAt {node : Projection} {value : Value} :
    (name, value) ∈ (node.cutAt models).selectionMembers ↔
      (name ∈ node.scalars ∨ name ∈ node.references) ∧ value = .bool true ∨
        ∃ child, (name, child) ∈ node.nested ∧
          value = ((Slot.nested child).cutAt models).selection := by
  have hscalars : (node.cutAt models).scalars = node.scalars := by rw [cutAt_eq]
  rw [mem_selectionMembers, mem_references_cutAt, hscalars]
  simp only [mem_nested_cutAt, Slot.cutAt]
  constructor
  · rintro (⟨hscalar | hreference | ⟨child, hbranch, hmodel⟩, hvalue⟩ |
      ⟨_, ⟨child, hbranch, hmodel, rfl⟩, hvalue⟩)
    · exact .inl ⟨.inl hscalar, hvalue⟩
    · exact .inl ⟨.inr hreference, hvalue⟩
    · exact .inr ⟨child, hbranch, by rwa [if_pos hmodel]⟩
    · exact .inr ⟨child, hbranch, by rwa [if_neg hmodel]⟩
  · rintro (⟨hflat, hvalue⟩ | ⟨child, hbranch, hvalue⟩)
    · exact .inl ⟨hflat.imp_right .inl, hvalue⟩
    · by_cases hmodel : child.model ∈ models
      · rw [if_pos hmodel] at hvalue
        exact .inl ⟨.inr (.inr ⟨child, hbranch, hmodel⟩), hvalue⟩
      · rw [if_neg hmodel] at hvalue
        exact .inr ⟨_, ⟨child, hbranch, hmodel, rfl⟩, hvalue⟩

end Projection

/-! ### What a longer path changes -/

namespace Synthesis

variable {synthesis : Synthesis} {path wide narrow models selected : List String}
  {model name : String}

/-- The members of a level that is cut are the selected names with what is left in their slots. -/
theorem mem_selectionMembers_cutAt_project {value : Value} :
    (name, value) ∈ ((synthesis.project path model selected).cutAt models).selectionMembers ↔
      name ∈ selected ∧ value = ((synthesis.slot path model name).cutAt models).selection := by
  rw [Projection.mem_selectionMembers_cutAt, mem_scalars_project, mem_references_project, slot]
  simp only [mem_nested_project]
  cases treat synthesis path model name with
  | scalar => simp [Treatment.isScalar, Treatment.isFlat, Slot.cutAt, Slot.selection]
  | flat fallback => simp [Treatment.isScalar, Treatment.isFlat, Slot.cutAt, Slot.selection]
  | expand target fresh candidates => simp [Treatment.isScalar, Treatment.isFlat, fresh]

/-- Let the models be those that one path holds beside the other. -/
theorem selection_slot_eq_cutAt (hcover : ∀ name, name ∈ wide ↔ name ∈ narrow ∨ name ∈ models)
    (hbelow : ∀ target ∈ synthesis.schema.names, target ∉ wide → ∀ selected,
      (synthesis.project (target :: wide) target selected).selection =
        ((synthesis.project (target :: narrow) target selected).cutAt models).selection) :
    (synthesis.slot wide model name).selection =
      ((synthesis.slot narrow model name).cutAt models).selection := by
  rw [slot_eq, slot_eq]
  cases (synthesis.schema.model? model).bind (·.field? name) with
  | none => rfl
  | some field =>
    cases htarget : field.target? with
    | none => simp only [htarget, Slot.cutAt]
    | some target =>
      simp only [htarget]
      cases hrelated : synthesis.schema.model? target with
      | none => rfl
      | some related =>
        have hdeclared := Schema.mem_names_of_model? hrelated
        dsimp only
        by_cases hnarrow :
            field.isList ∨ target ∈ narrow ∨ synthesis.candidates model related = []
        · -- Flat below the shorter path, so flat below the longer one.
          have hwide : field.isList ∨ target ∈ wide ∨ synthesis.candidates model related = [] :=
            hnarrow.imp_right (.imp_left fun h ↦ (hcover target).2 (.inl h))
          rw [if_pos hnarrow, if_pos hwide]
          rfl
        · rw [if_neg hnarrow, Slot.cutAt, project_model]
          by_cases htarget : target ∈ models
          · rw [if_pos htarget, if_pos (.inr (.inl ((hcover target).2 (.inr htarget))))]
          · have hwide : target ∉ wide := by
              rw [hcover]
              rintro (h | h)
              · exact hnarrow (.inr (.inl h))
              · exact htarget h
            have hexpanded : ¬(field.isList ∨ target ∈ wide ∨
                synthesis.candidates model related = []) := by
              rintro (h | h | h)
              · exact hnarrow (.inl h)
              · exact hwide h
              · exact hnarrow (.inr (.inr h))
            rw [if_neg htarget, if_neg hexpanded, Slot.selection, hbelow target hdeclared hwide]
            rfl

/-- A longer path cuts a tree at the models that it adds. -/
theorem selection_project_of_cover
    (hcover : ∀ name, name ∈ wide ↔ name ∈ narrow ∨ name ∈ models) :
    (synthesis.project wide model selected).selection =
      ((synthesis.project narrow model selected).cutAt models).selection := by
  induction hcount : synthesis.schema.countOutside wide using Nat.strong_induction_on
    generalizing wide narrow model selected with
  | h count ih =>
    subst hcount
    have hslot (name : String) : (synthesis.slot wide model name).selection =
        ((synthesis.slot narrow model name).cutAt models).selection := by
      refine selection_slot_eq_cutAt hcover fun target hdeclared hfresh selected ↦ ?_
      -- The target joins both paths, and the longer one still holds the models beside the other.
      refine ih _ (Schema.countOutside_cons_lt hdeclared hfresh) (fun name ↦ ?_) rfl
      rw [List.mem_cons, List.mem_cons, hcover, or_assoc]
    refine Projection.selection_congr nodup_names_project
      ((Projection.names_cutAt_perm _).nodup_iff.2 nodup_names_project) ?_
    rintro ⟨name, value⟩
    rw [mem_selectionMembers_project, mem_selectionMembers_cutAt_project, hslot]

/-- Below a path that holds the model, the model selects what it selects with nothing above it, cut
at the models on the path. In the same way the branch under a relation is the projection that the
related model has of its own, of the names that are fetched of it. -/
theorem selection_project_eq_cutAt (hmodel : model ∈ path) (selected : List String) :
    (synthesis.project path model selected).selection =
        ((synthesis.projectRoot model selected).cutAt path).selection ∧
      ∀ branch ∈ (synthesis.project path model selected).nested, ∃ related,
        synthesis.Expands path model branch.1 related ∧
          branch.2.selection = ((synthesis.projectRoot related.name
            (synthesis.candidates model related)).cutAt path).selection := by
  refine ⟨selection_project_of_cover fun name ↦ ?_, fun branch hbranch ↦ ?_⟩
  · rw [List.mem_singleton, iff_or_self]
    rintro rfl
    exact hmodel
  · obtain ⟨-, target, fresh, names, htreat, hnode⟩ := mem_nested_project.1 hbranch
    obtain ⟨related, hexpands⟩ := isExpanded_treat_iff.1 (by rw [htreat]; rfl)
    obtain ⟨_, hexpand⟩ := hexpands.treat_eq
    rw [htreat] at hexpand
    cases hexpand
    refine ⟨related, hexpands, ?_⟩
    rw [hnode]
    exact selection_project_of_cover fun name ↦ by rw [List.mem_cons, List.mem_singleton]

/-- The projection of a customer under an order, with the city of the customer cut off. -/
def cutCustomerBranch : Branch := ("customer", ⟨"Customer", ["phone"], ["city"], []⟩)

/-- Below a city, an order has a branch for its customer and the customer none for its city. -/
theorem selection_project_eq_cutAt_delivery :
    "Order" ∈ ["Order", "City"] ∧ ∃ below whole,
      deliverySynthesis.project ["Order", "City"] "Order" ["id", "customer"] = below ∧
      deliverySynthesis.projectRoot "Order" ["id", "customer"] = whole ∧
      below = ⟨"Order", ["id"], [], [cutCustomerBranch]⟩ ∧
      whole = ⟨"Order", ["id"], [], [customerBranch]⟩ ∧
      below.selection = (whole.cutAt ["Order", "City"]).selection ∧
      ∃ related, deliverySynthesis.Expands ["Order", "City"] "Order" "customer" related ∧
        cutCustomerBranch.2.selection = ((deliverySynthesis.projectRoot related.name
          (deliverySynthesis.candidates "Order" related)).cutAt ["Order", "City"]).selection := by
  have hpath : "Order" ∈ ["Order", "City"] := List.mem_cons_self
  have hbelow : deliverySynthesis.project ["Order", "City"] "Order" ["id", "customer"] =
      ⟨"Order", ["id"], [], [cutCustomerBranch]⟩ :=
    Option.some.inj ((@projectWithin_eq_some _ _ _ 2 (by decide) _).symm.trans rfl)
  have hwhole : deliverySynthesis.projectRoot "Order" ["id", "customer"] =
      ⟨"Order", ["id"], [], [customerBranch]⟩ := projectRoot_eq_of_projectWithin 3 (by decide) rfl
  have h := @selection_project_eq_cutAt deliverySynthesis _ _ hpath ["id", "customer"]
  exact ⟨hpath, _, _, rfl, rfl, hbelow, hwhole, h.1,
    h.2 cutCustomerBranch (hbelow ▸ List.mem_singleton_self cutCustomerBranch)⟩

end Synthesis

end SchemaPlan
