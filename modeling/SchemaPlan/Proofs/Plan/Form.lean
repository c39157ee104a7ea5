import SchemaPlan.Analysis.Basic
import SchemaPlan.Config.Basic
import SchemaPlan.Proofs.Projection.Form
import SchemaPlan.Proofs.Schema.Form
import SchemaPlan.Relations.Graph

/-!
# What a run reads and writes reads back

The settings and the configuration of a run, the relations and the analyses that it finds, and with
them its schema and its projections, are read back from their JSON forms (`forms_readBack`).
-/

set_option autoImplicit false
set_option relaxedAutoImplicit false

namespace SchemaPlan

open Json

/-! ### Configuration -/

instance : LawfulJsonForm Setting where
  ofJson?_toJson
    | .flag _ => rfl
    | .text _ => rfl
    | .list items => by
      have hread : readItems? ofJson? (items.map toJson) = some items :=
        readItems?_map items fun item _ ↦ ofJson?_toJson item
      exact congrArg (Option.map Setting.list) hread

instance : LawfulJsonForm Strategy where
  ofJson?_toJson strategy := by cases strategy <;> rfl

instance : LawfulJsonForm SelectOverride where
  ofJson?_toJson
    | .fields names => congrArg (Option.map SelectOverride.fields) (ofJson?_toJson names)
    | .malformed _ => rfl

instance : NeverNull SelectOverride where
  toJson_ne_null
    | .fields _ => nofun
    | .malformed _ => nofun

instance : LawfulJsonForm Overrides where
  ofJson?_toJson overrides := by
    unfold instJsonFormOverrides
    simp [List.lookup_cons]

instance : LawfulJsonForm Config where
  ofJson?_toJson config := by
    unfold Config.instJsonForm
    simp [List.lookup_cons]

/-! ### Relations -/

instance : LawfulJsonForm Edge where
  ofJson?_toJson edge := by
    unfold instJsonFormEdge
    simp [List.lookup_cons]

instance : LawfulJsonForm ModelRelations where
  ofJson?_toJson relations := by
    unfold instJsonFormModelRelations
    simp [List.lookup_cons]

instance : LawfulJsonForm Graph where
  ofJson?_toJson graph := by
    unfold Graph.instJsonForm
    simp

/-! ### Analyses -/

instance : LawfulJsonForm DefaultKind where
  ofJson?_toJson kind := by cases kind <;> rfl

instance : LawfulJsonForm TimestampRole where
  ofJson?_toJson role := by cases role <;> rfl

instance : NeverNull TimestampRole := ⟨fun _ h ↦ nomatch h⟩

instance : LawfulJsonForm Placeholder where
  ofJson?_toJson placeholder := by
    unfold Placeholder.instJsonForm
    cases placeholder <;>
      simp [Placeholder.tag, alternative?, Placeholder.plain, List.lookup_cons]

instance : LawfulJsonForm RuleKind where
  ofJson?_toJson kind := by cases kind <;> rfl

instance : LawfulJsonForm Rule where
  ofJson?_toJson rule := by
    unfold Rule.instJsonForm
    simp [List.lookup_cons]

instance : LawfulJsonForm FieldAnalysis where
  ofJson?_toJson field := by
    unfold instJsonFormFieldAnalysis
    simp [List.lookup_cons]

instance : LawfulJsonForm ModelAnalysis where
  ofJson?_toJson analysis := by
    unfold ModelAnalysis.instJsonForm
    simp [List.lookup_cons]

/-! ### A run -/

/-- Everything that a run takes or gives is read back from its JSON form. -/
theorem Plan.forms_readBack :
    (∀ schema : Schema, ofJson? (toJson schema) = some schema) ∧
    (∀ settings : Settings, ofJson? (toJson settings) = some settings) ∧
    (∀ config : Config, ofJson? (toJson config) = some config) ∧
    (∀ graph : Graph, ofJson? (toJson graph) = some graph) ∧
    (∀ analysis : ModelAnalysis, ofJson? (toJson analysis) = some analysis) ∧
    (∀ projection : Projection, ofJson? (toJson projection) = some projection) :=
  ⟨ofJson?_toJson, ofJson?_toJson, ofJson?_toJson, ofJson?_toJson, ofJson?_toJson, ofJson?_toJson⟩

end SchemaPlan
