import SchemaPlan.Json.Document

/-!
# Records in JSON

A record is written as an object, in which members of other names are ignored, or as an array of
its fields in order, in which fields may be left off at the end. A field that is missing has a
default, or is optional and then absent, or makes the record unreadable; in an array only a default
helps.
-/

set_option autoImplicit false
set_option relaxedAutoImplicit false

namespace SchemaPlan.Json

/-- The fields of a record under their names, as values or as documents. -/
structure Record (ν : Type) where
  members : List (String × ν)
  /-- Written as an array. -/
  positional : Bool

namespace Record

variable {ν α : Type}

/-- A field that must be there. -/
def required (record : Record ν) (name : String) (read? : ν → Option α) : Option α :=
  match record.members.lookup name with
  | some item => read? item
  | none => none

/-- A field that takes `default` when it is missing. -/
def defaulted (record : Record ν) (name : String) (default : α) (read? : ν → Option α) :
    Option α :=
  match record.members.lookup name with
  | some item => read? item
  | none => some default

/-- A required member is read where it stands, and nothing is read where it is missing. -/
theorem required_eq_elim (record : Record ν) (name : String) (read? : ν → Option α) :
    record.required name read? = (record.members.lookup name).elim none read? := by
  rw [required]
  cases record.members.lookup name <;> rfl

/-- A member that has a default is read where it stands, and is the default where it is missing. -/
theorem defaulted_eq_elim (record : Record ν) (name : String) (default : α)
    (read? : ν → Option α) :
    record.defaulted name default read? =
      (record.members.lookup name).elim (some default) read? := by
  rw [defaulted]
  cases record.members.lookup name <;> rfl

/-- A field that may be missing from an object. -/
def optional (record : Record ν) (name : String) (read? : ν → Option (Option α)) :
    Option (Option α) :=
  match record.members.lookup name with
  | some item => read? item
  | none => if record.positional then none else some none

/-- The record with the given fields that an array writes; `none` when there are too many items. -/
def ofItems? (fields : List String) (items : List ν) : Option (Record ν) :=
  if items.length ≤ fields.length then some ⟨fields.zip items, true⟩ else none

/-- The record with the given fields that a value writes. -/
def ofValue? (fields : List String) : Value → Option (Record Value)
  | .object members => some ⟨members, false⟩
  | .array items => ofItems? fields items
  | _ => none

/-- The members of a document, when all their names can be read. -/
def namedMembers? : List (Option String × Document) → Option (List (String × Document))
  | [] => some []
  | (some name, item) :: rest => (namedMembers? rest).map ((name, item) :: ·)
  | (none, _) :: _ => none

/-- No field is written twice. Other members may repeat. -/
def writesOnce (fields : List String) (members : List (String × Document)) : Bool :=
  fields.all fun field ↦ (members.map (·.1)).count field ≤ 1

/-- The record with the given fields that a document writes; `none` when a field is written
twice. -/
def ofDocument? (fields : List String) : Document → Option (Record Document)
  | .object members =>
    match namedMembers? members with
    | some named => if writesOnce fields named then some ⟨named, false⟩ else none
    | none => none
  | .array items => ofItems? fields items
  | _ => none

end Record

end SchemaPlan.Json
