import SchemaPlan.Schema.Cardinality
import SchemaPlan.Text.Ascii
import SchemaPlan.Text.Blank
import SchemaPlan.Text.Cut

/-!
# Fields of a model

A field has a type, a few marks and an optional default. A relation field that lists foreign keys
is the owning end of its relation; its cardinality follows from that and from its being a list.
-/

set_option autoImplicit false
set_option relaxedAutoImplicit false

namespace SchemaPlan

open Json

/-! ### Types -/

/-- The type of a field. -/
inductive FieldType
  | string
  | int
  | float
  | boolean
  | dateTime
  | json
  /-- A declared enumeration. -/
  | enum (name : String)
  /-- A relation to a model. -/
  | relation (target : String)
  /-- A type without meaning to the generator. -/
  | other (name : String)
  /-- A column that queries can neither read nor write. -/
  | unsupported (nativeType : String)
deriving DecidableEq

namespace FieldType

/-- The model that a relation points to. -/
def target? : FieldType → Option String
  | .relation target => some target
  | _ => none

/-- Whether this is a relation. -/
def isRelation (type : FieldType) : Bool := type.target?.isSome

/-- Whether this is an enumeration. -/
def isEnum : FieldType → Bool
  | .enum _ => true
  | _ => false

/-- Whether a query can select fields of this type. -/
def isSelectable : FieldType → Bool
  | .unsupported _ => false
  | _ => true

end FieldType

/-! ### Defaults -/

/-- A declared default. -/
inductive FieldDefault
  | literal (value : Value)
  | function (name : String) (args : List Value)

/-- The plain form of a function name: without blanks around it, without one pair of parentheses
behind it, and with the letters A to Z in lower case. -/
def canonicalName (name : String) : String :=
  let trimmed := Text.trim name
  Text.asciiLower ((Text.stem? "()" trimmed).getD trimmed)

/-- The plain name of the function that computes a default. -/
def FieldDefault.functionName? : FieldDefault → Option String
  | .function name _ => some (canonicalName name)
  | .literal _ => none

/-! ### Fields -/

/-- A field of a model. -/
structure Field where
  name : String
  type : FieldType
  isRequired : Bool := true
  isList : Bool := false
  isUnique : Bool := false
  /-- The field identifies the record. -/
  isId : Bool := false
  /-- The name that both ends of a relation share. -/
  relationName : Option String := none
  /-- The fields beside this one that hold the key of the related record. -/
  foreignKeys : List String := []
  initial : Option FieldDefault := none
  /-- The field is set anew at every change of the record. -/
  isUpdatedAt : Bool := false
  maxLength : Option UInt32 := none

namespace Field

/-- A relation field. -/
def relation (name target relationName : String) (foreignKeys : List String) : Field :=
  { name, type := .relation target, relationName := some relationName, foreignKeys }

/-- Whether the field is a relation. -/
def isRelation (field : Field) : Bool := field.type.isRelation

/-- The model that a relation field points to. -/
def target? (field : Field) : Option String := field.type.target?

/-- Whether the field is the owning end of a relation. -/
def isOwning (field : Field) : Bool := field.isRelation && !field.foreignKeys.isEmpty

/-- Whether a default is declared. -/
def hasDefault (field : Field) : Bool := field.initial.isSome

/-- The plain name of the function that computes the default. -/
def functionName? (field : Field) : Option String := field.initial.bind FieldDefault.functionName?

/-- Whether the default counts records. -/
def isAutoIncrement (field : Field) : Bool := field.functionName? == some "autoincrement"

/-- Whether a query can select the field by its name alone. -/
def isPlain (field : Field) : Bool := !field.isRelation && field.type.isSelectable

/-- The cardinality of a relation field. -/
def cardinality? (field : Field) : Option Cardinality :=
  if field.isRelation then some (.classify field.isOwning field.isList) else none

/-- The fields without a target are those that are no relations. -/
theorem target?_eq_none_iff {field : Field} : field.target? = none ↔ field.isRelation = false := by
  simp [isRelation, FieldType.isRelation, target?]

theorem target?_eq_none_of_isPlain {field : Field} (h : field.isPlain) : field.target? = none := by
  rw [target?_eq_none_iff]
  simpa using (Bool.and_eq_true_iff.1 h).1

end Field

end SchemaPlan
