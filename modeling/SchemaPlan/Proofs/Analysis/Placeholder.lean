import SchemaPlan.Proofs.Analysis.Coverage
import SchemaPlan.Proofs.Analysis.Spelling

/-!
# The parts of a field's analysis agree

The analysis of a field says apart what kind of default it has, how the default is spelled, whether
the database generates the field and which placeholder fills it. Identifiers and timestamps aside,
the placeholder follows the default (`Field.FollowsDefault`): a literal is its own placeholder, and
a counter has a temporary identifier. Which function computes a default is told by what its name
spells (`canonicalName_not_mem_foreseenFunctions_iff`). The placeholder is null exactly when the
default gives nothing and neither does the type (`Field.placeholder_eq_null_iff`). All parts are
held together by `Field.agrees_analyze`.
-/

set_option autoImplicit false
set_option relaxedAutoImplicit false

namespace SchemaPlan

/-! ### What a type and a function give -/

/-- The functions whose result has a placeholder in a field of any type. -/
def foreseenFunctions : List String := ["now", "uuid", "cuid", "ulid", "nanoid", "autoincrement"]

theorem mem_foreseenFunctions_iff {function : String} :
    function ∈ foreseenFunctions ↔ function = "now" ∨ function ∈ idFunctions := by
  rw [foreseenFunctions, idFunctions, List.mem_cons]

theorem isPlainName_of_mem_foreseenFunctions {function : String}
    (h : function ∈ foreseenFunctions) : IsPlainName function := by
  have hself : ∀ function ∈ foreseenFunctions, canonicalName function = function := by
    decide +kernel
  exact canonicalName_eq_self_iff.1 (hself function h)

/-- The plain form of a name is unforeseen when the name spells no foreseen function. -/
theorem canonicalName_not_mem_foreseenFunctions_iff {name : String} :
    canonicalName name ∉ foreseenFunctions ↔
      ∀ function ∈ foreseenFunctions, ¬Spells function name := by
  constructor
  · intro h function hfunction hspells
    rw [← canonicalName_eq_iff_spells (isPlainName_of_mem_foreseenFunctions hfunction)] at hspells
    exact h (hspells ▸ hfunction)
  · intro h hmem
    have hplain := isPlainName_of_mem_foreseenFunctions hmem
    exact h _ hmem ((canonicalName_eq_iff_spells hplain).1 rfl)

namespace FieldType

/-- The type has no zero that a required field could start as. -/
def HasNoZero : FieldType → Prop
  | .json | .enum _ | .relation _ | .other _ | .unsupported _ => True
  | .string | .int | .float | .boolean | .dateTime => False

variable {type : FieldType} {function : String}

/-- The zero of a type is null exactly when the type has none. -/
theorem zero_eq_null_iff : type.zero = .null ↔ type.HasNoZero := by
  cases type <;> simp [zero, HasNoZero]

/-- A function that makes identifiers has a temporary one in a field of any type. -/
theorem resultOf_of_mem_idFunctions (h : function ∈ idFunctions) :
    type.resultOf function = .temporaryId := by
  have hnow : function ≠ "now" := by
    rintro rfl
    exact absurd h (by decide)
  unfold resultOf
  rw [if_neg hnow, if_pos h]

/-- The placeholder of a result is null exactly when the function is unforeseen and the type is
neither a time nor a text. -/
theorem resultOf_eq_null_iff :
    type.resultOf function = .null ↔
      function ∉ foreseenFunctions ∧ type ≠ .dateTime ∧ type ≠ .string := by
  rw [mem_foreseenFunctions_iff, not_or]
  by_cases hnow : function = "now"
  · simp [resultOf, hnow]
  · by_cases hid : function ∈ idFunctions
    · simp [resultOf_of_mem_idFunctions hid, hid]
    · cases type <;> simp [resultOf, hnow, hid]

end FieldType

/-! ### Placeholders that follow the default -/

namespace Field

variable {field : Field}

/-- The field is neither an identifier nor a timestamp, so that its default has a say. -/
def FollowsDefault (field : Field) : Prop := field.isId = false ∧ field.timestampRole? = none

/-- The placeholder of a field that a function fills goes by the plain form of its name. -/
theorem placeholder_of_function (h : field.FollowsDefault) {name : String} {args : List Json.Value}
    (hinitial : field.initial = some (.function name args)) :
    field.placeholder = field.type.resultOf (canonicalName name) := by
  simp [placeholder, h.1, h.2, hinitial]

/-- A literal default is its own placeholder. -/
theorem placeholder_of_literal (h : field.FollowsDefault) {value : Json.Value}
    (hinitial : field.initial = some (.literal value)) :
    field.placeholder = .literal (printLiteral field.type value) := by
  simp [placeholder, h.1, h.2, hinitial]

theorem placeholder_of_initial_eq_none (h : field.FollowsDefault)
    (hinitial : field.initial = none) :
    field.placeholder = if field.isRequired then field.type.zero else .null := by
  simp [placeholder, h.1, h.2, hinitial]

/-- Identifiers and timestamps never start as null. -/
theorem placeholder_ne_null_of_not_followsDefault (h : ¬field.FollowsDefault) :
    field.placeholder ≠ .null := by
  rw [placeholder]
  cases hid : field.isId with
  | true => simp
  | false =>
    have hrole : field.timestampRole?.isSome := by
      rw [← Option.ne_none_iff_isSome]
      exact fun hnone ↦ h ⟨hid, hnone⟩
    rw [if_neg (by decide), if_pos hrole]
    simp

/-- Why a field whose placeholder follows its default starts as null. -/
inductive StartsNull (field : Field) : Prop
  /-- Nothing has to be there. -/
  | optional (initial : field.initial = none) (notRequired : field.isRequired = false)
  /-- Nothing of the type can stand there. -/
  | noZero (initial : field.initial = none) (type : field.type.HasNoZero)
  /-- A function that spells none of the foreseen ones fills neither a time nor a text. -/
  | unforeseen {name : String} {args : List Json.Value}
    (initial : field.initial = some (.function name args))
    (not_spells : ∀ function ∈ foreseenFunctions, ¬Spells function name)
    (ne_dateTime : field.type ≠ .dateTime) (ne_string : field.type ≠ .string)

theorem startsNull_of_initial_eq_none_iff (h : field.initial = none) :
    field.StartsNull ↔ field.isRequired = false ∨ field.type.HasNoZero := by
  constructor
  · intro hnull
    cases hnull with
    | optional _ hrequired => exact .inl hrequired
    | noZero _ htype => exact .inr htype
    | unforeseen hinitial => simp [h] at hinitial
  · rintro (hrequired | htype)
    · exact .optional h hrequired
    · exact .noZero h htype

/-- A field that a function fills starts as null exactly when the function is unforeseen and the
field is neither a time nor a text. -/
theorem startsNull_of_function_iff {name : String} {args : List Json.Value}
    (h : field.initial = some (.function name args)) :
    field.StartsNull ↔ (∀ function ∈ foreseenFunctions, ¬Spells function name) ∧
      field.type ≠ .dateTime ∧ field.type ≠ .string := by
  constructor
  · intro hnull
    cases hnull with
    | optional hinitial | noZero hinitial => simp [h] at hinitial
    | unforeseen hinitial hname hdate hstring =>
      rw [h] at hinitial
      cases hinitial
      exact ⟨hname, hdate, hstring⟩
  · rintro ⟨hname, hdate, hstring⟩
    exact .unforeseen h hname hdate hstring

/-- A field with a literal default does not start as null. -/
theorem not_startsNull_of_literal {value : Json.Value} (h : field.initial = some (.literal value)) :
    ¬field.StartsNull := by
  intro hnull
  cases hnull with
  | optional hinitial | noZero hinitial | unforeseen hinitial => simp [h] at hinitial

/-- The placeholder of a field is null exactly when it follows the default and the field starts as
null. -/
theorem placeholder_eq_null_iff :
    field.placeholder = .null ↔ field.FollowsDefault ∧ field.StartsNull := by
  by_cases hfollows : field.FollowsDefault
  · rw [and_iff_right hfollows]
    match hinitial : field.initial with
    | some (.function name args) =>
      rw [placeholder_of_function hfollows hinitial, FieldType.resultOf_eq_null_iff,
        startsNull_of_function_iff hinitial, canonicalName_not_mem_foreseenFunctions_iff]
    | some (.literal value) =>
      simp [placeholder_of_literal hfollows hinitial, not_startsNull_of_literal hinitial]
    | none =>
      rw [placeholder_of_initial_eq_none hfollows hinitial,
        startsNull_of_initial_eq_none_iff hinitial, ← FieldType.zero_eq_null_iff]
      cases field.isRequired <;> simp
  · simp [placeholder_ne_null_of_not_followsDefault hfollows, hfollows]

/-! ### Spelled defaults -/

theorem defaultExpression?_of_literal {value : Json.Value}
    (h : field.initial = some (.literal value)) :
    field.defaultExpression? = some (printLiteral field.type value) := by
  rw [defaultExpression?, h, Option.map_some]

theorem defaultExpression?_of_function {name : String} {args : List Json.Value}
    (h : field.initial = some (.function name args)) :
    field.defaultExpression? = some (canonicalName name) := by
  rw [defaultExpression?, h, Option.map_some]

/-- A function counts records exactly when its default is spelled `autoincrement`. -/
theorem isAutoIncrement_iff_of_function {name : String} {args : List Json.Value}
    (h : field.initial = some (.function name args)) :
    field.isAutoIncrement ↔ field.defaultExpression? = some "autoincrement" := by
  rw [isAutoIncrement, beq_iff_eq, functionName?, h, Option.bind_some,
    defaultExpression?_of_function h, FieldDefault.functionName?]

end Field

/-! ### All parts -/

/-- How the parts of the analysis of a field fit the field and each other. -/
structure FieldAnalysis.Agrees (analysis : FieldAnalysis) (field : Field) : Prop where
  needsPlaceholder_of_isAutoGenerated : analysis.isAutoGenerated → analysis.needsPlaceholder
  /-- A literal default is its own placeholder. -/
  placeholder_of_literal : field.isId = false → analysis.timestampRole = none →
    ∀ value, field.initial = some (.literal value) →
      ∃ text, analysis.defaultExpression = some text ∧ analysis.placeholder = .literal text
  /-- A function counts records when it is spelled so. -/
  isAutoIncrement_iff : ∀ name args, field.initial = some (.function name args) →
    (field.isAutoIncrement ↔ analysis.defaultExpression = some "autoincrement")
  placeholder_of_autoincrement : field.isId = false → analysis.timestampRole = none →
    ∀ name args, field.initial = some (.function name args) →
      analysis.defaultExpression = some "autoincrement" → analysis.placeholder = .temporaryId
  placeholder_eq_null_iff : analysis.placeholder = .null ↔
    field.isId = false ∧ analysis.timestampRole = none ∧ field.StartsNull

/-- The parts of the analysis of a field agree, whatever foreign keys its model has. -/
theorem Field.agrees_analyze (foreignKeys : List String) (field : Field) :
    (field.analyze foreignKeys).Agrees field := by
  constructor
  case needsPlaceholder_of_isAutoGenerated =>
    intro hgenerated
    have hgenerated : field.isAutoGenerated := hgenerated
    change field.needsPlaceholder
    rw [needsPlaceholder_eq, hgenerated, Bool.true_or]
  case placeholder_of_literal =>
    intro hid hrole value hinitial
    exact ⟨_, defaultExpression?_of_literal hinitial,
      placeholder_of_literal ⟨hid, hrole⟩ hinitial⟩
  case isAutoIncrement_iff =>
    exact fun name args hinitial ↦ isAutoIncrement_iff_of_function hinitial
  case placeholder_of_autoincrement =>
    intro hid hrole name args hinitial hspelled
    have hname : canonicalName name = "autoincrement" :=
      Option.some.inj ((defaultExpression?_of_function hinitial).symm.trans hspelled)
    have hresult : field.type.resultOf (canonicalName name) = .temporaryId :=
      FieldType.resultOf_of_mem_idFunctions (by rw [hname]; decide)
    exact (placeholder_of_function ⟨hid, hrole⟩ hinitial).trans hresult
  case placeholder_eq_null_iff =>
    exact Field.placeholder_eq_null_iff.trans and_assoc

end SchemaPlan
