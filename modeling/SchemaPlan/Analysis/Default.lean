import SchemaPlan.Json.Printer
import SchemaPlan.Schema.Field

/-!
# Declared defaults

What kind of default a field has and how generated code spells it: a function by its plain name, a
literal of a text field as a quoted string, and any other literal as it is.
-/

set_option autoImplicit false
set_option relaxedAutoImplicit false

namespace SchemaPlan

open Json

/-- What kind of default a field declares. -/
inductive DefaultKind
  | none
  | literal
  | function
deriving DecidableEq

namespace DefaultKind

/-- All kinds. -/
def all : List DefaultKind := [.none, .literal, .function]

/-- The name of a kind in JSON. -/
def name : DefaultKind → String
  | .none => "none"
  | .literal => "literal"
  | .function => "function"

instance : JsonForm DefaultKind where
  toJson kind := .string kind.name
  ofJson? := readUnit? all name

end DefaultKind

/-- The content of a literal: a string without its quotes, anything else as compact JSON. -/
def literalContent : Value → String
  | .string text => text
  | value => value.compress

/-- How generated code spells a literal of a field of the type. -/
def printLiteral (type : FieldType) (value : Value) : String :=
  match type with
  | .string => String.ofList (quote (literalContent value))
  | _ => literalContent value

namespace Field

/-- What kind of default the field declares. -/
def defaultKind (field : Field) : DefaultKind :=
  match field.initial with
  | none => .none
  | some (.literal _) => .literal
  | some (.function _ _) => .function

/-- How generated code spells the default of the field. -/
def defaultExpression? (field : Field) : Option String :=
  field.initial.map fun
    | .literal value => printLiteral field.type value
    | .function name _ => canonicalName name

end Field

end SchemaPlan
