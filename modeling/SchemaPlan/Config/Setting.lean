import SchemaPlan.Schema.Datamodel

/-!
# Settings

The host passes its configuration as a flat bag: each key holds a flag, a text or a list of texts. A
text and the list of its parts between commas stand for the same entries.
-/

set_option autoImplicit false
set_option relaxedAutoImplicit false

namespace SchemaPlan

open Json

/-- What kind of value a setting is. -/
inductive Shape
  | flag
  | text
  | list
deriving DecidableEq

/-- The word for a shape in messages. -/
def Shape.name : Shape → String
  | .flag => "boolean"
  | .text => "string"
  | .list => "list"

/-- The value of one key. -/
inductive Setting
  | flag (value : Bool)
  | text (value : String)
  | list (items : List String)
deriving DecidableEq

namespace Setting

/-- The shape of a setting. -/
def shape : Setting → Shape
  | .flag _ => .flag
  | .text _ => .text
  | .list _ => .list

/-- The entries without blanks around them, and without those that are then empty. -/
def tidy (items : List String) : List String :=
  (items.map Text.trim).filter (· ≠ "")

/-- The entries of a setting. A flag has none. -/
def entries? : Setting → Option (List String)
  | .flag _ => none
  | .text value => some (tidy (Text.splitOn ',' value))
  | .list items => some (tidy items)

instance : JsonForm Setting where
  toJson
    | .flag value => toJson value
    | .text value => toJson value
    | .list items => toJson items
  ofJson?
    | .bool value => some (.flag value)
    | .string value => some (.text value)
    | .array items => (readItems? ofJson? items).map .list
    | _ => none

/-- The setting that a document writes. -/
def ofDocument? : Document → Option Setting
  | .bool value => some (.flag value)
  | .string value => value.map .text
  | .array items => (readItems? Datamodel.readText? items).map .list
  | _ => none

end Setting

/-- The bag of all settings. -/
abbrev Settings := NameMap Setting

/-- The settings that a document writes. The last value of a repeated key counts, but every value
has to be a setting. -/
def Settings.ofDocument? : Document → Option Settings
  | .object members => do
    let named ← Record.namedMembers? members
    let settings ← readMembers? Setting.ofDocument? named
    return NameMap.ofList settings
  | _ => none

/-- The settings that a text writes. -/
def Settings.ofText? (text : String) : Option Settings :=
  match Document.ofText? text with
  | some document => Settings.ofDocument? document
  | none => none

end SchemaPlan
