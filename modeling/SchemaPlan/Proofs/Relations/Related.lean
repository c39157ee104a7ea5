import SchemaPlan.Proofs.Relations.Pairing

/-!
# Related models

A model is listed as related to another if it owns a relation to it, or if the graph lists with it
a field of the other that points to it (`isRelated_graph`). Two models between which a relation
field runs are listed with each other where every field is answered by one that points back. A field
without an answer relates them at one end alone (`not_isRelated_gallery`).
-/

set_option autoImplicit false
set_option relaxedAutoImplicit false

namespace SchemaPlan.Schema

variable {schema : Schema} {first second : String}

/-- A relation field of the kind, in the first model, points to the second. -/
def RelatesBy (schema : Schema) (kind : Field → Prop) (first second : String) : Prop :=
  ∃ model ∈ schema.models, model.name = first ∧
    ∃ field ∈ model.fields, field.target? = some second ∧ kind field

/-- A relation field of the first model points to the second. -/
def Relates (schema : Schema) (first second : String) : Prop :=
  schema.RelatesBy (fun _ ↦ True) first second

/-- Every field that the graph takes for the other end of a relation points back, and a field that
does not own its relation has another end, if it points to a declared model. -/
def IsTwoSided (schema : Schema) : Prop :=
  ∀ model ∈ schema.models, ∀ field ∈ model.fields, schema.PairsBack model field ∧
    ∀ target ∈ field.target?, target ∈ schema.names →
      field.isOwning ∨ (schema.pairOf? field).isSome

instance (schema : Schema) : Decidable schema.IsTwoSided :=
  inferInstanceAs (Decidable (∀ model ∈ schema.models, ∀ field ∈ model.fields, _ ∧
    ∀ target ∈ field.target?, _))

theorem RelatesBy.relates {kind : Field → Prop} (h : schema.RelatesBy kind first second) :
    schema.Relates first second := by
  obtain ⟨model, hmodel, hname, field, hfield, htarget, -⟩ := h
  exact ⟨model, hmodel, hname, field, hfield, htarget, trivial⟩

/-! ### The edges that relate two models -/

/-- An edge that a model owns leads to another exactly when an owning field of the model does. -/
theorem exists_owns_target_iff :
    (∃ edge ∈ schema.graph.owns first, edge.target = second) ↔
      schema.RelatesBy (·.isOwning) first second := by
  rw [owns_graph]
  constructor
  · rintro ⟨edge, hedge, rfl⟩
    obtain ⟨model, hmodel, field, hfield, hplaced⟩ := mem_edgesAt.1 hedge
    obtain ⟨hdescribes, hname, howning, -⟩ := edgeAt?_owns_eq_some_iff.1 hplaced
    exact ⟨model, hmodel, hname, field, hfield, hdescribes.target_eq, howning⟩
  · rintro ⟨model, hmodel, rfl, field, hfield, htarget, howning⟩
    obtain ⟨edge, hplaced⟩ := exists_edgeAt?_owns schema model howning
    have hedge := (describes_of_edgeAt? hplaced).target_eq
    exact ⟨edge, mem_edgesAt.2 ⟨model, hmodel, field, hfield, hplaced⟩,
      Option.some.inj (hedge.symm.trans htarget)⟩

/-- An edge that points to a model comes from another exactly when a listed field of the other leads
to the model. -/
theorem exists_referencedBy_source_iff (hfirst : first ∈ schema.names) :
    (∃ edge ∈ schema.graph.referencedBy first, edge.source = second) ↔
      schema.RelatesBy schema.Lists second first := by
  rw [referencedBy_graph]
  constructor
  · rintro ⟨edge, hedge, rfl⟩
    obtain ⟨model, hmodel, field, hfield, hplaced⟩ := mem_edgesAt.1 hedge
    obtain ⟨hdescribes, rfl, -⟩ := edgeAt?_referencedBy_eq_some_iff.1 hplaced
    exact ⟨model, hmodel, hdescribes.source_eq.symm, field, hfield, hdescribes.target_eq,
      lists_of_edgeAt? hplaced⟩
  · rintro ⟨model, hmodel, rfl, field, hfield, htarget, hlists⟩
    rw [Lists, pairOf?_eq htarget] at hlists
    obtain ⟨edge, hplaced⟩ := exists_edgeAt?_referencedBy model hfirst htarget hlists
    exact ⟨edge, mem_edgesAt.2 ⟨model, hmodel, field, hfield, hplaced⟩,
      (describes_of_edgeAt? hplaced).source_eq⟩

/-- A model is related to another when an owning field of it leads there or a listed field of the
other leads back. -/
theorem isRelated_graph_iff (hfirst : first ∈ schema.names) :
    schema.graph.isRelated first second ↔
      schema.RelatesBy (·.isOwning) first second ∨ schema.RelatesBy schema.Lists second first := by
  obtain ⟨set, hset, hmem⟩ := related_graph hfirst
  rw [Graph.isRelated, hset, Option.any_some, NameSet.contains, List.contains_iff_mem, hmem,
    exists_owns_target_iff, exists_referencedBy_source_iff hfirst]

/-! ### Relations with two sides -/

/-- What is taken for the other end of a field in a schema of two-sided relations points back. -/
theorem IsTwoSided.exists_of_pairOf? {model : Model} {field other : Field} {target : String}
    (h : schema.IsTwoSided) (hmodel : model ∈ schema.models) (hfield : field ∈ model.fields)
    (htarget : field.target? = some target) (hpair : schema.pairOf? field = some other) :
    ∃ related ∈ schema.models, related.name = target ∧ other ∈ related.fields ∧
      other.target? = some model.name := by
  obtain ⟨related, hrelated, hname, hother, -⟩ := exists_model_of_pairOf? hpair
  have hpoints : other.target? = some model.name := (h model hmodel field hfield).1 other hpair
  exact ⟨related, hrelated, Option.some.inj (hname.symm.trans htarget), hother, hpoints⟩

/-- With two sides, a field that does not own its relation relates its model and its target either
way. -/
theorem IsTwoSided.relatesBy_of_not_isOwning {model : Model} {field : Field} (h : schema.IsTwoSided)
    (hmodel : model ∈ schema.models) (hfield : field ∈ model.fields)
    (htarget : field.target? = some second) (hsecond : second ∈ schema.names)
    (howning : ¬field.isOwning) :
    (schema.RelatesBy (·.isOwning) model.name second ∨
        schema.RelatesBy schema.Lists second model.name) ∧
      (schema.RelatesBy (·.isOwning) second model.name ∨
        schema.RelatesBy schema.Lists model.name second) := by
  have hanswer := (h model hmodel field hfield).2 second htarget hsecond
  obtain ⟨other, hpair⟩ := Option.isSome_iff_exists.1 (hanswer.resolve_left howning)
  obtain ⟨related, hrelated, rfl, hother, hpoints⟩ :=
    h.exists_of_pairOf? hmodel hfield htarget hpair
  by_cases hpairOwns : other.isOwning
  · have howns : schema.RelatesBy (·.isOwning) related.name model.name :=
      ⟨related, hrelated, rfl, other, hother, hpoints, hpairOwns⟩
    have hlists : schema.RelatesBy schema.Lists related.name model.name :=
      ⟨related, hrelated, rfl, other, hother, hpoints, .inl hpairOwns⟩
    exact ⟨.inr hlists, .inl howns⟩
  · have hlists : schema.RelatesBy schema.Lists model.name related.name :=
      ⟨model, hmodel, rfl, field, hfield, htarget, .inr (by simp [hpair, hpairOwns])⟩
    refine ⟨?_, .inr hlists⟩
    -- `other` is listed unless what it is paired with owns the relation, and then that field
    -- relates the two models.
    by_cases hotherLists : schema.Lists other
    · exact .inr ⟨related, hrelated, rfl, other, hother, hpoints, hotherLists⟩
    · rw [Lists, not_or, not_not, Option.any_eq_true] at hotherLists
      obtain ⟨-, third, hthird, hthirdOwns⟩ := hotherLists
      obtain ⟨model', hmodel', hname, hmem, hback⟩ :=
        h.exists_of_pairOf? hrelated hother hpoints hthird
      exact .inl ⟨model', hmodel', hname, third, hmem, hback, hthirdOwns⟩

/-- Where relations have two sides, a field lists the models that it relates with each other. -/
theorem IsTwoSided.relatesBy (h : schema.IsTwoSided) (hsecond : second ∈ schema.names)
    (hrelates : schema.Relates first second) :
    (schema.RelatesBy (·.isOwning) first second ∨ schema.RelatesBy schema.Lists second first) ∧
      (schema.RelatesBy (·.isOwning) second first ∨
        schema.RelatesBy schema.Lists first second) := by
  obtain ⟨model, hmodel, rfl, field, hfield, htarget, -⟩ := hrelates
  by_cases howning : field.isOwning
  · have howns : schema.RelatesBy (·.isOwning) model.name second :=
      ⟨model, hmodel, rfl, field, hfield, htarget, howning⟩
    have hlists : schema.RelatesBy schema.Lists model.name second :=
      ⟨model, hmodel, rfl, field, hfield, htarget, .inl howning⟩
    exact ⟨.inl howns, .inr hlists⟩
  · exact h.relatesBy_of_not_isOwning hmodel hfield htarget hsecond howning

/-- The record of the first model lists the second as related exactly if the first owns a relation
to the second, or a field of the second that the graph lists points to the first. Where relations
have two sides, this is so exactly if a relation field runs between the two models. -/
theorem isRelated_graph (hfirst : first ∈ schema.names) (hsecond : second ∈ schema.names) :
    (schema.graph.isRelated first second ↔
      schema.RelatesBy (·.isOwning) first second ∨ schema.RelatesBy schema.Lists second first) ∧
    (schema.IsTwoSided → (schema.graph.isRelated first second ↔
      schema.Relates first second ∨ schema.Relates second first)) := by
  refine ⟨isRelated_graph_iff hfirst, fun htwo ↦ ?_⟩
  rw [isRelated_graph_iff hfirst]
  constructor
  · rintro (howns | hlists)
    · exact .inl howns.relates
    · exact .inr hlists.relates
  · rintro (hrelates | hrelates)
    · exact (htwo.relatesBy hsecond hrelates).1
    · exact (htwo.relatesBy hfirst hrelates).2

/-- In the journal tags and posts are related either way. -/
theorem isRelated_graph_journal : "Tag" ∈ journal.names ∧ "Post" ∈ journal.names ∧
    journal.IsTwoSided ∧ (journal.graph.isRelated "Tag" "Post" ↔
      journal.Relates "Tag" "Post" ∨ journal.Relates "Post" "Tag") := by
  have htag : "Tag" ∈ journal.names := by decide
  have hpost : "Post" ∈ journal.names := by decide
  have htwo : journal.IsTwoSided := by decide
  exact ⟨htag, hpost, htwo, (isRelated_graph htag hpost).2 htwo⟩

/-- Users with a picture, and pictures that know nothing of users. -/
def gallery : Schema where
  models := [
    { name := "User", fields := [.relation "avatar" "Image" "UserAvatar" []] },
    { name := "Image", fields := [{ name := "id", type := .int, isId := true }] }]

/-- The picture is listed as related to the user, but the user is not as related to the picture. -/
theorem not_isRelated_gallery : gallery.names.Nodup ∧
    "User" ∈ gallery.names ∧ "Image" ∈ gallery.names ∧
    ¬(gallery.graph.isRelated "User" "Image" ↔
      gallery.Relates "User" "Image" ∨ gallery.Relates "Image" "User") ∧
    gallery.graph.isRelated "Image" "User" ≠ gallery.graph.isRelated "User" "Image" := by
  refine ⟨by decide, by decide, by decide, fun hiff ↦ ?_, by decide⟩
  have hrelates : gallery.Relates "User" "Image" := by
    refine ⟨_, List.mem_cons_self, rfl, _, List.mem_cons_self, rfl, trivial⟩
  exact absurd (hiff.2 (.inl hrelates)) (by decide)

end SchemaPlan.Schema
