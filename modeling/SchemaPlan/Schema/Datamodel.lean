import SchemaPlan.Json.Form
import SchemaPlan.Json.Reader
import SchemaPlan.Schema.Basic

/-!
# Schemas from a host's data model

The host describes its data model as a JSON document: models with fields, each with a kind, a type
name and optional marks. `Schema.ofDocument?` reads one; everything the generator does not use is
passed over unread. A payload that is a value rather than a text is read as the document that writes
it.
-/

set_option autoImplicit false
set_option relaxedAutoImplicit false

namespace SchemaPlan

open Json

namespace Datamodel

/-! ### Basic readers -/

/-- A string. -/
def readText? : Document → Option String
  | .string text => text
  | _ => none

/-- A truth value. -/
def readBool? : Document → Option Bool
  | .bool value => some value
  | _ => none

/-- A list. -/
def readList? {α : Type} (read? : Document → Option α) : Document → Option (List α)
  | .array items => readItems? read? items
  | _ => none

/-- Null, or what `read?` reads. -/
def readOptional? {α : Type} (read? : Document → Option α) : Document → Option (Option α)
  | .null => some none
  | document => (read? document).map some

/-! ### Fields -/

/-- What kind of thing a field holds. -/
inductive Kind
  | scalar
  | enum
  | object
  | unsupported
deriving DecidableEq

/-- All kinds. -/
def Kind.all : List Kind := [.scalar, .enum, .object, .unsupported]

/-- The name of a kind. -/
def Kind.name : Kind → String
  | .scalar => "scalar"
  | .enum => "enum"
  | .object => "object"
  | .unsupported => "unsupported"

/-- A kind: its name, or an object with that name for its only member, which is null. -/
def readKind? : Document → Option Kind
  | .string (some text) => alternative? Kind.all Kind.name text
  | .object [(some text, .null)] => alternative? Kind.all Kind.name text
  | _ => none

/-- The type of a field of the kind, from the name of its type. -/
def Kind.type (kind : Kind) (name : String) : FieldType :=
  match kind with
  | .object => .relation name
  | .enum => .enum name
  | .unsupported => .unsupported name
  | .scalar =>
    match name with
    | "String" => .string
    | "Int" | "BigInt" => .int
    | "Float" | "Decimal" => .float
    | "Boolean" => .boolean
    | "DateTime" => .dateTime
    | "Json" => .json
    | _ => .other name

/-- A default: a call when it is an object with a name and, if any, a list of arguments, and any
other value is literal. An object that writes the name or the arguments twice is no call. -/
def readDefault? (limit : Option Nat) (document : Document) : Option FieldDefault :=
  match document.toValue? limit with
  | none => none
  | some value =>
    let call : Option FieldDefault :=
      match document with
      | .object _ =>
        match Record.ofDocument? ["name", "args"] document with
        | none => none
        | some _ =>
          match value.member? "name", value.member? "args" with
          | some (.string name), none => some (.function name [])
          | some (.string name), some (.array args) => some (.function name args)
          | _, _ => none
      | _ => none
    some (call.getD (.literal value))

/-- A column type of the database: its name and its arguments. -/
def readNativeType? : Document → Option (String × List String)
  | .array [name, args] =>
    match readText? name, readList? readText? args with
    | some name, some args => some (name, args)
    | _, _ => none
  | _ => none

/-- The column types whose first argument bounds the length of a text. -/
def boundedTypes : List String := ["VarChar", "Char", "NVarChar", "NChar"]

/-- A length: digits behind an optional plus sign, of a value that fits 32 bits. -/
def readLength? (text : String) : Option UInt32 :=
  let digits := match Text.trimBlanks text.toList with
    | '+' :: rest => rest
    | chars => chars
  if digits.isEmpty || !digits.all Char.isDigit then none
  else
    let value := Nat.ofDigitChars 10 digits 0
    if value < 0x100000000 then some value.toUInt32 else none

/-- The greatest length that a column type allows. -/
def maxLength? : String × List String → Option UInt32
  | (name, args) => if boundedTypes.contains name then args.head?.bind readLength? else none

/-- The entries of a field, in the order in which an array writes them. -/
def fieldEntries : List String :=
  ["name", "kind", "type", "isRequired", "isList", "isUnique", "isId", "relationName",
    "relationFromFields", "default", "isUpdatedAt", "nativeType"]

/-- A field. Only relations have a relation name and foreign keys, whatever the host sends. -/
def readField? (limit : Option Nat) (document : Document) : Option Field := do
  let record ← Record.ofDocument? fieldEntries document
  let name ← record.required "name" readText?
  let kind ← record.required "kind" readKind?
  let typeName ← record.required "type" readText?
  let isRequired ← record.defaulted "isRequired" false readBool?
  let isList ← record.defaulted "isList" false readBool?
  let isUnique ← record.defaulted "isUnique" false readBool?
  let isId ← record.defaulted "isId" false readBool?
  let relationName ← record.defaulted "relationName" none (readOptional? readText?)
  let foreignKeys ←
    record.defaulted "relationFromFields" none (readOptional? (readList? readText?))
  let initial ← record.defaulted "default" none (readOptional? (readDefault? limit))
  let isUpdatedAt ← record.defaulted "isUpdatedAt" false readBool?
  let nativeType ← record.defaulted "nativeType" none (readOptional? readNativeType?)
  let isRelation := kind == .object
  return {
    name, isRequired, isList, isUnique, isId, initial, isUpdatedAt
    type := kind.type typeName
    relationName := if isRelation then relationName else none
    foreignKeys := if isRelation then foreignKeys.getD [] else []
    maxLength := nativeType.bind maxLength? }

/-! ### Models and schemas -/

/-- A model. -/
def readModel? (limit : Option Nat) (document : Document) : Option Model := do
  let record ← Record.ofDocument? ["name", "fields"] document
  let name ← record.required "name" readText?
  let fields ← record.defaulted "fields" [] (readList? (readField? limit))
  return { name, fields }

/-- The arrays and objects that stay open around the default of a field. -/
def defaultDepth : Nat := 5

end Datamodel

open Datamodel

/-- The schema of a document; literal values in it nest no deeper than `limit`. -/
def Schema.ofDocument? (limit : Option Nat) (document : Document) : Option Schema := do
  let record ← Record.ofDocument? ["models"] document
  let models ← record.required "models" (readList? (readModel? limit))
  return { models }

/-- The schema of a payload that is a value. -/
def Schema.ofPayload? (value : Value) : Option Schema :=
  Schema.ofDocument? none (.ofValue value)

/-- The schema of a payload that is a text. -/
def Schema.ofText? (text : String) : Option Schema :=
  match Document.ofText? text with
  | some document => Schema.ofDocument? (some (nestingLimit - defaultDepth)) document
  | none => none

end SchemaPlan
