import SchemaPlan.Analysis.Placeholder

/-!
# Input rules

The checks that a client makes on what the user enters, derived from one field at a time. Only text
fields have rules beyond being required.
-/

set_option autoImplicit false
set_option relaxedAutoImplicit false

namespace SchemaPlan

open Json

/-- What a rule checks. -/
inductive RuleKind
  | required
  | maxLength
  | email
  | url
deriving DecidableEq

namespace RuleKind

/-- All kinds, in the order in which the rules of a field are listed. -/
def all : List RuleKind := [.required, .maxLength, .email, .url]

/-- The name of a kind. -/
def name : RuleKind → String
  | .required => "required"
  | .maxLength => "max_length"
  | .email => "email"
  | .url => "url"

instance : JsonForm RuleKind where
  toJson kind := .string kind.name
  ofJson? := readUnit? all name

end RuleKind

/-- One check on one field. -/
structure Rule where
  field : String
  kind : RuleKind
  /-- The greatest length that is allowed. -/
  parameter : Option UInt32
  /-- What the user reads when the check fails. -/
  message : String
deriving DecidableEq

namespace Rule

/-- A value has to be entered. -/
def required (field : String) : Rule := ⟨field, .required, none, field ++ " is required"⟩

/-- The text may have at most `limit` characters. -/
def maxLength (field : String) (limit : UInt32) : Rule :=
  ⟨field, .maxLength, some limit,
    field ++ " must be at most " ++ toString limit.toNat ++ " characters"⟩

/-- The text has to be an email address. -/
def email (field : String) : Rule :=
  ⟨field, .email, none, field ++ " must be a valid email address"⟩

/-- The text has to be a URL. -/
def url (field : String) : Rule := ⟨field, .url, none, field ++ " must be a valid URL"⟩

instance : JsonForm Rule where
  toJson rule := .ofMembers [
    ("field", toJson rule.field),
    ("kind", toJson rule.kind),
    ("parameter", toJson rule.parameter),
    ("message", toJson rule.message)]
  ofJson? value := do
    let record ← Record.ofValue? ["field", "kind", "parameter", "message"] value
    return {
      field := ← record.field? "field"
      kind := ← record.field? "kind"
      parameter := ← record.optionalField? "parameter"
      message := ← record.field? "message" }

end Rule

/-- Whether a text of the name holds an address of a page. -/
def isUrlName (name : String) : Bool :=
  let lowered := Text.asciiLower name
  Text.contains "url" lowered || Text.contains "website" lowered

namespace Field

/-- Whether the database or the generated code fills the field. -/
def isAutoGenerated (field : Field) : Bool :=
  field.isId || field.timestampRole?.isSome || field.isAutoIncrement

/-- Whether the user has to enter a value. -/
def isDemanded (field : Field) : Bool :=
  field.isRequired && !field.isRelation && !field.isAutoGenerated && !field.hasDefault

/-- The rules that only text fields have. -/
def textRules (field : Field) : List Rule :=
  (field.maxLength.map (Rule.maxLength field.name)).toList ++
    (if field.name = "email" then [.email field.name] else []) ++
    (if isUrlName field.name then [.url field.name] else [])

/-- The rules of a field. -/
def rules (field : Field) : List Rule :=
  (if field.isDemanded then [.required field.name] else []) ++
    (if field.type = .string then field.textRules else [])

end Field

end SchemaPlan
