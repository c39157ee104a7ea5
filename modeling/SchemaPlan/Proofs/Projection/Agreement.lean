import SchemaPlan.Proofs.Projection.Termination
import SchemaPlan.Proofs.Schema.Part

/-!
# Projections of a closed part

What a level holds under a name depends on a few look-ups: the field of the name, the model that it
points to, whether this model is on the path, and what is fetched below it (`slot_eq`). Two
syntheses that look up the same for the models of a closed part (`ExtendsTo`) therefore build the
same tree from any model of the part (`ExtendsTo.project_eq`): a synthesis that starts in the part
never leaves it.
-/

set_option autoImplicit false
set_option relaxedAutoImplicit false

namespace SchemaPlan.Synthesis

variable {synthesis : Synthesis} {path : List String} {model name : String}

/-! ### Levels as sequences of slots -/

theorem project_nil : synthesis.project path model [] = ⟨model, [], [], []⟩ := by
  rw [project]
  rfl

/-- A level is filled name by name. -/
theorem project_eq_foldl (selected : List String) :
    synthesis.project path model selected =
      selected.foldl (fun node name ↦ node.push name (synthesis.slot path model name))
        ⟨model, [], [], []⟩ := by
  induction selected using List.reverseRecOn with
  | nil => exact project_nil
  | append_singleton selected name ih =>
    rw [List.foldl_append, ← ih, List.foldl_cons, List.foldl_nil, push_project]

/-- What becomes of a name, in terms of what is looked up for it. -/
theorem slot_eq (synthesis : Synthesis) (path : List String) (model name : String) :
    synthesis.slot path model name =
      match (synthesis.schema.model? model).bind (·.field? name) with
      | none => .reference
      | some field =>
        match field.target? with
        | none => .scalar
        | some target =>
          match synthesis.schema.model? target with
          | none => .reference
          | some related =>
            if field.isList ∨ target ∈ path ∨ synthesis.candidates model related = [] then
              .reference
            else
              .nested (synthesis.project (target :: path) target
                (synthesis.candidates model related)) := by
  have hslot : (synthesis.treat path model name).slot?
      (fun path model selected ↦ some (synthesis.project path model selected)) =
        some (synthesis.slot path model name) := by
    rw [slot]
    cases synthesis.treat path model name <;> rfl
  refine Option.some.inj (hslot.symm.trans ?_)
  rw [treat]
  cases hfield : (synthesis.schema.model? model).bind (·.field? name) with
  | none => rfl
  | some field =>
    cases htarget : field.target? with
    | none => simp [htarget, Treatment.slot?]
    | some target =>
      simp only [htarget]
      by_cases hlist : field.isList
      · rw [if_pos hlist]
        cases hrelated : synthesis.schema.model? target with
        | none => rfl
        | some related => simp [hlist, Treatment.slot?]
      · rw [if_neg hlist]
        split
        · next hrelated =>
          rw [hrelated]
          rfl
        · next related hrelated =>
          by_cases hpath : target ∈ path
          · simp [hrelated, hpath, Treatment.slot?]
          · by_cases hcandidates : synthesis.candidates model related = []
            · simp [hrelated, hpath, hcandidates, Treatment.slot?]
            · simp [hrelated, hlist, hpath, hcandidates, Treatment.slot?]

/-! ### Syntheses that extend each other -/

/-- Both syntheses look up the same for the models that the first one declares. -/
structure ExtendsTo (part whole : Synthesis) : Prop where
  schema : part.schema.IsClosedPart whole.schema
  source_eq : whole.source = part.source
  isRelated_eq : ∀ first ∈ part.schema.names, ∀ second ∈ part.schema.names,
    whole.graph.isRelated first second = part.graph.isRelated first second

namespace ExtendsTo

variable {part whole : Synthesis}

/-- What is fetched below a relation is the same when the synthesis is extended. -/
theorem candidates_eq (h : part.ExtendsTo whole) (hmodel : model ∈ part.schema.names)
    {related : Model} (hrelated : related.name ∈ part.schema.names) :
    whole.candidates model related = part.candidates model related := by
  rw [candidates, candidates, h.source_eq, h.isRelated_eq related.name hrelated model hmodel]

/-- The tree below a model is the same when the synthesis is extended. -/
theorem project_eq (h : part.ExtendsTo whole) (hmodel : model ∈ part.schema.names)
    (selected : List String) :
    whole.project path model selected = part.project path model selected := by
  induction hcount : part.schema.countOutside path using Nat.strong_induction_on
    generalizing path model selected with
  | h count ih =>
    subst hcount
    have hslot (name : String) : whole.slot path model name = part.slot path model name := by
      rw [slot_eq, slot_eq, h.schema.model?_eq hmodel]
      cases hfield : (part.schema.model? model).bind (·.field? name) with
      | none => rfl
      | some field =>
        obtain ⟨descriptor, hdescriptor, hfield⟩ := Option.bind_eq_some_iff.1 hfield
        have hmem := (Schema.mem_of_model? hdescriptor).1
        have hfieldMem := (Model.mem_of_field? hfield).1
        cases htarget : field.target? with
        | none => simp only [htarget]
        | some target =>
          simp only [htarget]
          rw [h.schema.model?_target hmem hfieldMem htarget]
          cases hrelated : part.schema.model? target with
          | none => rfl
          | some related =>
            obtain ⟨hrelatedMem, rfl⟩ := Schema.mem_of_model? hrelated
            have hdeclared : related.name ∈ part.schema.names := List.mem_map_of_mem hrelatedMem
            dsimp only
            rw [h.candidates_eq hmodel hdeclared]
            split
            · rfl
            · next hexpanded =>
              -- The call below has the declared model `related` on its path as well.
              have hfresh : related.name ∉ path := fun hpath ↦ hexpanded (.inr (.inl hpath))
              have hlt := Schema.countOutside_cons_lt hdeclared hfresh
              rw [ih _ hlt hdeclared _ rfl]
    rw [project_eq_foldl, project_eq_foldl]
    simp only [hslot]

end ExtendsTo

end SchemaPlan.Synthesis
