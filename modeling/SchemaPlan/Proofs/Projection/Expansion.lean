import SchemaPlan.Proofs.Projection.Level
import SchemaPlan.Proofs.Projection.Path

/-!
# Expanded relations

A name is expanded when it is that of a relation to a single record, of a declared model off the
path, and something is left to fetch there (`treat_eq_expand_iff`). What is fetched are the fields
configured for the model, or else its plain fields, but no lists and no relations back
(`mem_candidates_iff`). All levels of a synthesized projection arise in this way, and the model of a
level is on its path (`exists_project_of_hasNode`).
-/

set_option autoImplicit false
set_option relaxedAutoImplicit false

namespace SchemaPlan.Synthesis

variable {synthesis : Synthesis} {path : List String} {model name : String}

/-! ### What is fetched below a relation -/

/-- An expansion into the model starts from the field: its name is configured for the model, or it
is plain and nothing is configured. -/
def Chooses (synthesis : Synthesis) (related : Model) (field : Field) : Prop :=
  match synthesis.source related.name with
  | some names => field.name ∈ names
  | none => field.isPlain

variable {current : String} {related : Model}

/-- What is fetched below a relation are the chosen fields that do not lead back. -/
theorem mem_candidates_iff (hnodup : (related.fields.map (·.name)).Nodup) :
    name ∈ synthesis.candidates current related ↔
      ∃ field, related.field? name = some field ∧ synthesis.Chooses related field ∧
        isCandidate (synthesis.graph.isRelated related.name current) current field := by
  rw [candidates, List.mem_map]
  simp only [List.mem_filter, Chooses]
  cases synthesis.source related.name with
  | some names =>
    constructor
    · rintro ⟨field, ⟨hchosen, hcandidate⟩, rfl⟩
      obtain ⟨name, hname, hfield⟩ := List.mem_filterMap.1 hchosen
      obtain ⟨-, rfl⟩ := Model.mem_of_field? hfield
      exact ⟨field, hfield, hname, hcandidate⟩
    · rintro ⟨field, hfield, hname, hcandidate⟩
      obtain ⟨-, rfl⟩ := Model.mem_of_field? hfield
      exact ⟨field, ⟨List.mem_filterMap.2 ⟨field.name, hname, hfield⟩, hcandidate⟩, rfl⟩
  | none =>
    constructor
    · rintro ⟨field, ⟨hchosen, hcandidate⟩, rfl⟩
      obtain ⟨hfield, hplain⟩ := List.mem_filter.1 hchosen
      exact ⟨field, Model.field?_of_mem hnodup hfield, hplain, hcandidate⟩
    · rintro ⟨field, hfield, hplain, hcandidate⟩
      obtain ⟨hmem, hname⟩ := Model.mem_of_field? hfield
      exact ⟨field, ⟨List.mem_filter.2 ⟨hmem, hplain⟩, hcandidate⟩, hname⟩

/-- A field that is no relation does not lead back. -/
theorem isCandidate_of_target?_eq_none {field : Field} (h : field.target? = none)
    (pointsBack : Bool) (current : String) : isCandidate pointsBack current field := by
  rw [isCandidate, h]

/-- Where no fields are set for a model, its plain fields are fetched below a relation. -/
theorem candidates_of_source_eq_none (h : synthesis.source related.name = none) :
    synthesis.candidates current related = related.plainNames := by
  rw [candidates, h, Model.plainNames]
  refine congrArg _ (List.filter_eq_self.2 fun field hfield ↦ ?_)
  have htarget := Field.target?_eq_none_of_isPlain (List.mem_filter.1 hfield).2
  exact isCandidate_of_target?_eq_none htarget _ current

/-! ### Which names are expanded -/

/-- A name is expanded when it is that of a relation to a single record, its target is declared and
not on the path, and there is something to fetch. -/
theorem treat_eq_expand_iff {target : String}
    {fresh : target ∈ synthesis.schema.names ∧ target ∉ path} {names : List String} :
    synthesis.treat path model name = .expand target fresh names ↔
      ∃ descriptor field related, synthesis.schema.model? model = some descriptor ∧
        descriptor.field? name = some field ∧ field.target? = some target ∧
        field.isList = false ∧ synthesis.schema.model? target = some related ∧
        names = synthesis.candidates model related ∧ names ≠ [] := by
  rw [treat]
  constructor
  · intro h
    split at h
    · cases h
    · next field hfield =>
      obtain ⟨descriptor, hdescriptor, hfield⟩ := Option.bind_eq_some_iff.1 hfield
      split at h
      · cases h
      · next other htarget =>
        split at h
        · cases h
        · next hlist =>
          split at h
          · cases h
          · next related hrelated =>
            split at h
            · cases h
            · dsimp only at h
              split at h
              · cases h
              · next hnames =>
                cases h
                exact ⟨descriptor, field, related, hdescriptor, hfield, htarget,
                  Bool.eq_false_iff.2 hlist, hrelated, rfl, by simpa using hnames⟩
  · rintro ⟨descriptor, field, related, hdescriptor, hfield, htarget, hlist, hrelated, rfl, hnames⟩
    rw [hdescriptor, Option.bind_some, hfield]
    simp only [htarget]
    rw [if_neg (Bool.eq_false_iff.1 hlist)]
    split
    · next hnone =>
      rw [hrelated] at hnone
      cases hnone
    · next found hfound =>
      obtain rfl : found = related := Option.some.inj (hfound.symm.trans hrelated)
      rw [dif_neg fresh.2, if_neg (by simpa using hnames)]

/-! ### The levels of a tree -/

/-- A query for one relation to a single record of another model has a branch under it. -/
theorem mem_nested_projectRoot {target : String} {descriptor related : Model} {field : Field}
    (hdescriptor : synthesis.schema.model? model = some descriptor)
    (hfield : descriptor.field? name = some field) (htarget : field.target? = some target)
    (hlist : field.isList = false) (hrelated : synthesis.schema.model? target = some related)
    (hne : target ≠ model) (hcandidates : synthesis.candidates model related ≠ []) :
    (name, synthesis.project [target, model] target (synthesis.candidates model related)) ∈
      (synthesis.projectRoot model [name]).nested := by
  have hfresh : target ∈ synthesis.schema.names ∧ target ∉ [model] := by
    refine ⟨?_, by simpa using hne⟩
    rw [← Schema.isSome_model?_iff, hrelated]
    rfl
  have htreat : synthesis.treat [model] model name =
      .expand target hfresh (synthesis.candidates model related) :=
    treat_eq_expand_iff.2 ⟨descriptor, field, related, hdescriptor, hfield, htarget, hlist,
      hrelated, rfl, hcandidates⟩
  exact mem_nested_project.2 ⟨List.mem_singleton_self name, target, hfresh, _, htreat, rfl⟩

/-- Every level of a tree is projected for some names at a model on its path. -/
theorem exists_project_of_hasNode {selected : List String} {node : Projection}
    (hmodel : model ∈ path)
    (h : (synthesis.project path model selected).HasNode node) :
    ∃ way place names, place ∈ way ∧ node = synthesis.project way place names := by
  obtain ⟨levels, hlevels, hnode⟩ := h
  generalize htree : synthesis.project path model selected = tree at hlevels
  induction hlevels generalizing path model selected with
  | here tree =>
    obtain rfl := List.mem_singleton.1 hnode
    exact ⟨path, model, selected, hmodel, htree.symm⟩
  | step hbranch _ ih =>
    rcases List.mem_cons.1 hnode with rfl | hlevel
    · exact ⟨path, model, selected, hmodel, htree.symm⟩
    · subst htree
      obtain ⟨-, target, fresh, candidates, -, hbranch⟩ := mem_nested_project.1 hbranch
      exact ih List.mem_cons_self hlevel hbranch.symm

end SchemaPlan.Synthesis
