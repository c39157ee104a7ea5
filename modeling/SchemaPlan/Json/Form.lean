import SchemaPlan.Json.Record

/-!
# JSON forms of types

`JsonForm α` writes the members of a type as JSON values and reads them back. Here are the forms of
the basic types and the ways in which alternatives are tagged.
-/

set_option autoImplicit false
set_option relaxedAutoImplicit false

namespace SchemaPlan.Json

/-- A type with a JSON form. -/
class JsonForm (α : Type) where
  /-- Writes. -/
  toJson : α → Value
  /-- Reads what `toJson` writes, and other spellings. -/
  ofJson? : Value → Option α

export JsonForm (toJson ofJson?)

/-! ### Basic types -/

instance : JsonForm Value := ⟨id, some⟩

instance : JsonForm Bool where
  toJson := .bool
  ofJson?
    | .bool value => some value
    | _ => none

instance : JsonForm String where
  toJson := .string
  ofJson?
    | .string text => some text
    | _ => none

/-- Only integers are read, not reals of integer value. -/
instance : JsonForm UInt32 where
  toJson value := .ofNat value.toNat
  ofJson?
    | .number (.integer value _) =>
      if 0 ≤ value ∧ value < 0x100000000 then some value.toNat.toUInt32 else none
    | _ => none

/-- Reads every item. -/
def readItems? {α β : Type} (read? : α → Option β) : List α → Option (List β)
  | [] => some []
  | item :: rest =>
    match read? item, readItems? read? rest with
    | some value, some values => some (value :: values)
    | _, _ => none

instance {α : Type} [JsonForm α] : JsonForm (List α) where
  toJson items := .array (items.map toJson)
  ofJson?
    | .array items => readItems? ofJson? items
    | _ => none

instance {α : Type} [JsonForm α] : JsonForm (Option α) where
  toJson
    | none => .null
    | some value => toJson value
  ofJson?
    | .null => some none
    | value => (ofJson? value).map some

/-- Reads the value under every name. -/
def readMembers? {α β : Type} (read? : α → Option β) :
    List (String × α) → Option (List (String × β))
  | [] => some []
  | (name, item) :: rest =>
    match read? item, readMembers? read? rest with
    | some value, some values => some ((name, value) :: values)
    | _, _ => none

instance {α : Type} [JsonForm α] : JsonForm (NameMap α) where
  toJson map := .object (map.entries.map fun entry ↦ (entry.1, toJson entry.2))
  ofJson?
    | .object members => (readMembers? ofJson? members).map NameMap.ofList
    | _ => none

instance : JsonForm NameSet where
  toJson set := toJson set.names
  ofJson? value := (ofJson? value : Option (List String)).map NameSet.ofList

/-! ### Fields of records -/

/-- A field that must be there, in its JSON form. -/
def Record.field? {α : Type} [JsonForm α] (record : Record Value) (name : String) : Option α :=
  record.required name ofJson?

/-- A field that may be missing from an object, in its JSON form. -/
def Record.optionalField? {α : Type} [JsonForm α] (record : Record Value) (name : String) :
    Option (Option α) :=
  record.optional name ofJson?

/-- A field with a default, in its JSON form. -/
def Record.defaultedField? {α : Type} [JsonForm α] (record : Record Value) (name : String)
    (default : α) : Option α :=
  record.defaulted name default ofJson?

/-! ### Alternatives -/

/-- The name of an alternative without content: a string, or an object with a single member that is
null. -/
def unitName? : Value → Option String
  | .string name => some name
  | .object [(name, .null)] => some name
  | _ => none

/-- The alternative among `all` with the name. -/
def alternative? {α : Type} (all : List α) (name : α → String) (text : String) : Option α :=
  all.find? fun choice ↦ name choice == text

/-- An alternative without content, read by its name among `all`. -/
def readUnit? {α : Type} (all : List α) (name : α → String) (value : Value) : Option α :=
  match unitName? value with
  | some text => alternative? all name text
  | none => none

/-- An alternative with its tag beside its content: the name of the alternative, and its content if
there is one. As an array it has exactly these two items. -/
def taggedBeside? (tag content : String) : Value → Option (String × Option Value)
  | .object members =>
    match members.lookup tag with
    | some value => (unitName? value).map (·, members.lookup content)
    | none => none
  | .array [value, item] => (unitName? value).map (·, some item)
  | _ => none

/-- An alternative with its tag among its fields: the name of the alternative, and the value with
its fields. As an array the tag comes first. -/
def taggedWithin? (tag : String) : Value → Option (String × Value)
  | .object members =>
    match members.lookup tag with
    | some (.string name) => some (name, .object members)
    | _ => none
  | .array (.string name :: items) => some (name, .array items)
  | _ => none

end SchemaPlan.Json
