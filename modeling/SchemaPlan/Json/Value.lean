import SchemaPlan.Json.Number
import SchemaPlan.NameMap

/-!
# JSON values

A value is what remains of a JSON text when its layout is forgotten. `Value.ofMembers` builds an
object with its members in order of their names, the last one of each name; `IsNormal` holds of the
values in which every object has that form.
-/

set_option autoImplicit false
set_option relaxedAutoImplicit false

namespace SchemaPlan.Json

/-- A JSON value. -/
inductive Value
  | null
  | bool (value : Bool)
  | number (value : Number)
  | string (text : String)
  | array (items : List Value)
  | object (members : List (String × Value))

namespace Value

instance : Inhabited Value := ⟨.null⟩

/-- The object of the members, the last one of each name. -/
def ofMembers (members : List (String × Value)) : Value := .object (sortEntries members)

/-- A natural number as a value. Counts stay far below the bound. -/
def ofNat (n : Nat) : Value :=
  match Number.ofInt? n with
  | some whole => .number whole
  | none => .null

/-- The value, or null. -/
def ofOption : Option Value → Value
  | none => .null
  | some value => value

/-- An array of texts. -/
def ofStrings (texts : List String) : Value := .array (texts.map .string)

/-- The member under a name. -/
def member? : Value → String → Option Value
  | .object members, name => members.lookup name
  | _, _ => none

mutual

/-- The names in every object strictly ascend. -/
def IsNormal : Value → Prop
  | .null | .bool _ | .number _ | .string _ => True
  | .array items => AreNormal items
  | .object members => Ascending members ∧ MembersAreNormal members

/-- Every item is normal. -/
def AreNormal : List Value → Prop
  | [] => True
  | item :: rest => item.IsNormal ∧ AreNormal rest

/-- Every member is normal. -/
def MembersAreNormal : List (String × Value) → Prop
  | [] => True
  | (_, value) :: rest => value.IsNormal ∧ MembersAreNormal rest

end

mutual

/-- The number of arrays and objects on the longest way down. -/
def depth : Value → Nat
  | .null | .bool _ | .number _ | .string _ => 0
  | .array items => depthOfItems items + 1
  | .object members => depthOfMembers members + 1

/-- The greatest depth of the items. -/
def depthOfItems : List Value → Nat
  | [] => 0
  | item :: rest => max item.depth (depthOfItems rest)

/-- The greatest depth of the members. -/
def depthOfMembers : List (String × Value) → Nat
  | [] => 0
  | (_, value) :: rest => max value.depth (depthOfMembers rest)

end

end Value

end SchemaPlan.Json
