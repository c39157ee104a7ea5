import Mathlib.Logic.Basic
import SchemaPlan.Analysis.Basic

/-!
# Every required field is demanded or filled

Whether the user has to fill a field and whether a placeholder fills it are decided apart: the one
looks at what the database generates, the other at whether a default is declared. A field that
counts records declares a default (`Field.hasDefault_of_isAutoIncrement`), so both leave out the
same fields (`Field.needsPlaceholder_eq`), and a required field that is no relation meets exactly
one of the two conditions (`Field.isDemanded_iff`). The analysis of a model holds these parts field
by field, in the order of declaration (`Model.analyze_covers`).
-/

set_option autoImplicit false
set_option relaxedAutoImplicit false

namespace SchemaPlan

/-! ### Lists that make up another -/

/-- The third list consists of the items of the other two, which keep their order. -/
inductive Interleaves {α : Type} : List α → List α → List α → Prop
  | nil : Interleaves [] [] []
  | left {item : α} {first second whole : List α} (h : Interleaves first second whole) :
      Interleaves (item :: first) second (item :: whole)
  | right {item : α} {first second whole : List α} (h : Interleaves first second whole) :
      Interleaves first (item :: second) (item :: whole)

theorem Interleaves.map {α β : Type} {first second whole : List α}
    (h : Interleaves first second whole) (value : α → β) :
    Interleaves (first.map value) (second.map value) (whole.map value) := by
  induction h with
  | nil => exact .nil
  | left _ ih => exact .left ih
  | right _ ih => exact .right ih

/-- What a condition keeps and what it leaves out make up the list. -/
theorem interleaves_filter {α : Type} (keep : α → Bool) (items : List α) :
    Interleaves (items.filter keep) (items.filter fun item ↦ !keep item) items := by
  induction items with
  | nil => exact .nil
  | cons item rest ih =>
    by_cases hitem : keep item
    · rw [List.filter_cons_of_pos hitem, List.filter_cons_of_neg (by simp [hitem])]
      exact .left ih
    · rw [List.filter_cons_of_neg hitem, List.filter_cons_of_pos (by simp [hitem])]
      exact .right ih

/-! ### One field -/

namespace Field

variable {field : Field}

/-- A field that counts records declares the default that counts them. -/
theorem hasDefault_of_isAutoIncrement (h : field.isAutoIncrement) : field.hasDefault := by
  have hname : field.functionName? = some "autoincrement" := beq_iff_eq.1 h
  obtain ⟨initial, hinitial, -⟩ := Option.bind_eq_some_iff.1 hname
  rw [hasDefault, hinitial]
  rfl

/-- A placeholder is needed where the database generates the field or a default is declared. -/
theorem needsPlaceholder_eq (field : Field) :
    field.needsPlaceholder = (field.isAutoGenerated || field.hasDefault) := by
  rw [needsPlaceholder, isAutoGenerated]
  cases hcounts : field.isAutoIncrement with
  | false => rw [Bool.or_false]
  | true => rw [hasDefault_of_isAutoIncrement hcounts, Bool.or_true, Bool.or_true]

/-- The user has to fill the required fields that are no relations and need no placeholder. -/
theorem isDemanded_iff :
    field.isDemanded ↔ field.isRequired ∧ ¬field.isRelation ∧ ¬field.needsPlaceholder := by
  simp [isDemanded, needsPlaceholder_eq, and_assoc]

theorem field_eq_of_mem_textRules {rule : Rule} (h : rule ∈ field.textRules) :
    rule.field = field.name := by
  rw [textRules, List.mem_append, List.mem_append] at h
  rcases h with (h | h) | h
  · obtain ⟨limit, -, rfl⟩ := Option.map_eq_some_iff.1 (Option.mem_toList.1 h)
    rfl
  · obtain ⟨-, h⟩ := List.mem_ite_nil_right.1 h
    rw [List.mem_singleton.1 h, Rule.email]
  · obtain ⟨-, h⟩ := List.mem_ite_nil_right.1 h
    rw [List.mem_singleton.1 h, Rule.url]

/-- The rules of a field name it. -/
theorem field_eq_of_mem_rules {rule : Rule} (h : rule ∈ field.rules) : rule.field = field.name := by
  rw [rules, List.mem_append] at h
  rcases h with h | h
  · obtain ⟨-, h⟩ := List.mem_ite_nil_right.1 h
    rw [List.mem_singleton.1 h, Rule.required]
  · exact field_eq_of_mem_textRules (List.mem_ite_nil_right.1 h).2

theorem map_kind_ite_sublist {condition : Prop} [Decidable condition] {rules : List Rule}
    {kinds : List RuleKind} (h : (rules.map (·.kind)).Sublist kinds) :
    ((if condition then rules else []).map (·.kind)).Sublist kinds := by
  split
  · exact h
  · exact List.nil_sublist _

theorem map_kind_textRules_sublist :
    (field.textRules.map (·.kind)).Sublist [.maxLength, .email, .url] := by
  have hlength : ((field.maxLength.map (Rule.maxLength field.name)).toList.map (·.kind)).Sublist
      [.maxLength] := by
    cases field.maxLength with
    | none => exact List.nil_sublist _
    | some limit => exact List.Sublist.refl _
  have hemail : ((if field.name = "email" then [Rule.email field.name] else []).map
      (·.kind)).Sublist [.email] := map_kind_ite_sublist (List.Sublist.refl _)
  have hurl : ((if isUrlName field.name then [Rule.url field.name] else []).map
      (·.kind)).Sublist [.url] := map_kind_ite_sublist (List.Sublist.refl _)
  rw [textRules, List.map_append, List.map_append]
  exact (hlength.append hemail).append hurl

/-- The rules of a field stand in the order of their kinds, one of each kind at most. -/
theorem map_kind_rules_sublist : (field.rules.map (·.kind)).Sublist RuleKind.all := by
  have hrequired : ((if field.isDemanded then [Rule.required field.name] else []).map
      (·.kind)).Sublist [.required] := map_kind_ite_sublist (List.Sublist.refl _)
  have htext : ((if field.type = .string then field.textRules else []).map (·.kind)).Sublist
      [.maxLength, .email, .url] := map_kind_ite_sublist map_kind_textRules_sublist
  rw [rules, List.map_append]
  exact hrequired.append htext

/-- A field has the rule that it is required exactly when the user has to fill it. -/
theorem exists_required_iff : (∃ rule ∈ field.rules, rule.kind = .required) ↔ field.isDemanded := by
  constructor
  · rintro ⟨rule, hrule, hkind⟩
    rw [rules, List.mem_append] at hrule
    rcases hrule with hrule | hrule
    · exact (List.mem_ite_nil_right.1 hrule).1
    · -- No rule for texts is of this kind.
      have hmem : rule.kind ∈ field.textRules.map (·.kind) :=
        List.mem_map_of_mem (List.mem_ite_nil_right.1 hrule).2
      have htext := map_kind_textRules_sublist.subset hmem
      simp [hkind] at htext
  · intro h
    refine ⟨.required field.name, ?_, rfl⟩
    rw [rules, if_pos h]
    exact List.mem_append_left _ (List.mem_singleton_self _)

/-- A field that is no text has no other rule than that it is required. -/
theorem kind_eq_required_of_mem_rules {rule : Rule} (htype : field.type ≠ .string)
    (h : rule ∈ field.rules) : rule.kind = .required := by
  rw [rules, if_neg htype, List.append_nil] at h
  obtain ⟨-, h⟩ := List.mem_ite_nil_right.1 h
  rw [List.mem_singleton.1 h, Rule.required]

end Field

/-! ### Whole models -/

/-- A field of a model and what the analysis of the model holds of it. -/
structure FieldPart where
  field : Field
  analysis : FieldAnalysis
  rules : List Rule

namespace FieldPart

/-- The user has to enter a value. -/
def IsDemanded (part : FieldPart) : Prop := ∃ rule ∈ part.rules, rule.kind = .required

/-- How the parts of a field fit together. -/
structure IsCovered (part : FieldPart) : Prop where
  name_eq : part.analysis.name = part.field.name
  rules_field : ∀ rule ∈ part.rules, rule.field = part.field.name
  isDemanded_iff : part.IsDemanded ↔
    part.field.isRequired ∧ ¬part.field.isRelation ∧ ¬part.field.needsPlaceholder
  /-- The user fills the field or a placeholder does, but not both. -/
  demanded_xor_filled : part.field.isRequired → ¬part.field.isRelation →
    Xor part.IsDemanded part.analysis.needsPlaceholder
  /-- The kinds of the rules stand in canonical order, each at most once. -/
  kinds_sublist : (part.rules.map (·.kind)).Sublist RuleKind.all
  kind_of_ne_string : part.field.type ≠ .string → ∀ rule ∈ part.rules, rule.kind = .required

/-- The analysis of a field and its rules cover the field. -/
theorem isCovered_analyze (foreignKeys : List String) (field : Field) :
    IsCovered ⟨field, field.analyze foreignKeys, field.rules⟩ := by
  have hdemanded : IsDemanded ⟨field, field.analyze foreignKeys, field.rules⟩ ↔
      field.isRequired ∧ ¬field.isRelation ∧ ¬field.needsPlaceholder :=
    Field.exists_required_iff.trans Field.isDemanded_iff
  constructor
  case name_eq => rfl
  case rules_field => exact fun rule hrule ↦ Field.field_eq_of_mem_rules hrule
  case isDemanded_iff => exact hdemanded
  case demanded_xor_filled =>
    intro hrequired hrelation
    rw [hdemanded]
    by_cases hfilled : field.needsPlaceholder
    · exact .inr ⟨hfilled, fun h ↦ h.2.2 hfilled⟩
    · exact .inl ⟨⟨hrequired, hrelation, hfilled⟩, hfilled⟩
  case kinds_sublist => exact Field.map_kind_rules_sublist
  case kind_of_ne_string =>
    exact fun htype rule hrule ↦ Field.kind_eq_required_of_mem_rules htype hrule

end FieldPart

namespace Model

/-- The required and the optional fields make up the scalars, in the order of declaration. -/
theorem interleaves_required_optional (model : Model) :
    Interleaves model.analyze.required model.analyze.optional model.analyze.scalars := by
  have h := (interleaves_filter (·.isRequired) (model.analyze.fields.filter fun field ↦
    !field.isRelation)).map (·.name)
  rw [List.filter_filter, List.filter_filter] at h
  simpa only [analyze, Bool.and_comm] using h

/-- The scalars and the relations make up the fields, in the order of declaration. -/
theorem interleaves_scalars_relations (model : Model) :
    Interleaves model.analyze.scalars model.analyze.relations (model.fields.map (·.name)) := by
  have h := (interleaves_filter (fun field : FieldAnalysis ↦ !field.isRelation)
    model.analyze.fields).map (·.name)
  have hnames : model.analyze.fields.map (·.name) = model.fields.map (·.name) := by
    rw [analyze, List.map_map]
    rfl
  rw [hnames] at h
  simpa only [analyze, Bool.not_not] using h

/-- The analyses and the rules of a model are those of its fields in order of declaration. A
required field that is no relation is demanded of the user or filled with a placeholder, never both
and never neither. The required and the optional fields make up the scalar fields, and these and the
relations make up all fields. -/
theorem analyze_covers (model : Model) :
    (∃ parts : List FieldPart, parts.map (·.field) = model.fields ∧
      parts.map (·.analysis) = model.analyze.fields ∧
      parts.flatMap (·.rules) = model.analyze.rules ∧ ∀ part ∈ parts, part.IsCovered) ∧
    Interleaves model.analyze.required model.analyze.optional model.analyze.scalars ∧
    Interleaves model.analyze.scalars model.analyze.relations (model.fields.map (·.name)) := by
  refine ⟨⟨model.fields.map fun field ↦ ⟨field, field.analyze model.foreignKeys, field.rules⟩,
    ?_, ?_, ?_, ?_⟩, interleaves_required_optional model, interleaves_scalars_relations model⟩
  · rw [List.map_map]
    exact List.map_id _
  · rw [List.map_map]
    rfl
  · rw [List.flatMap_map]
    rfl
  · intro part hpart
    obtain ⟨field, -, rfl⟩ := List.mem_map.1 hpart
    exact FieldPart.isCovered_analyze model.foreignKeys field

end Model

end SchemaPlan
