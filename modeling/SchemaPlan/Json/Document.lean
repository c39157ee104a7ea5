import SchemaPlan.Json.Value

/-!
# JSON documents

A document is a JSON text as it was written, down to the order and repetition of members. Strings
with an unpaired surrogate and numbers too large for binary64 have a place in it without content.
`Document.toValue?` gives the value of a document, if it has one, and undoes `Document.ofValue` on
normal values (`toValue?_ofValue`).
-/

set_option autoImplicit false
set_option relaxedAutoImplicit false

namespace SchemaPlan.Json

/-- A JSON text without its layout. -/
inductive Document
  | null
  | bool (value : Bool)
  | number (value : Option Number)
  | string (text : Option String)
  | array (items : List Document)
  | object (members : List (Option String × Document))

namespace Document

instance : Inhabited Document := ⟨.null⟩

mutual

/-- The number of arrays and objects on the longest way down. -/
def depth : Document → Nat
  | .null | .bool _ | .number _ | .string _ => 0
  | .array items => depthOfItems items + 1
  | .object members => depthOfMembers members + 1

/-- The greatest depth of the items. -/
def depthOfItems : List Document → Nat
  | [] => 0
  | item :: rest => max item.depth (depthOfItems rest)

/-- The greatest depth of the members. -/
def depthOfMembers : List (Option String × Document) → Nat
  | [] => 0
  | (_, value) :: rest => max value.depth (depthOfMembers rest)

end

mutual

/-- The value of the document; `none` when a string or a number in it has no content. -/
def value? : Document → Option Value
  | .null => some .null
  | .bool value => some (.bool value)
  | .number value => value.map .number
  | .string text => text.map .string
  | .array items => (valuesOfItems? items).map .array
  | .object members => (valuesOfMembers? members).map .ofMembers

/-- The values of the items. -/
def valuesOfItems? : List Document → Option (List Value)
  | [] => some []
  | item :: rest =>
    match item.value?, valuesOfItems? rest with
    | some value, some values => some (value :: values)
    | _, _ => none

/-- The values of the members. -/
def valuesOfMembers? : List (Option String × Document) → Option (List (String × Value))
  | [] => some []
  | (name, item) :: rest =>
    match name, item.value?, valuesOfMembers? rest with
    | some name, some value, some values => some ((name, value) :: values)
    | _, _, _ => none

end

/-- The value of the document, when it nests no deeper than `limit`; no limit is `none`. -/
def toValue? (limit : Option Nat) (document : Document) : Option Value :=
  if limit.all (document.depth ≤ ·) then document.value? else none

mutual

/-- The document that writes a value. -/
def ofValue : Value → Document
  | .null => .null
  | .bool value => .bool value
  | .number value => .number (some value)
  | .string text => .string (some text)
  | .array items => .array (ofItems items)
  | .object members => .object (ofMembers members)

/-- The documents that write the items. -/
def ofItems : List Value → List Document
  | [] => []
  | item :: rest => ofValue item :: ofItems rest

/-- The documents that write the members. -/
def ofMembers : List (String × Value) → List (Option String × Document)
  | [] => []
  | (name, value) :: rest => (some name, ofValue value) :: ofMembers rest

end

/-! ### Values read back -/

mutual

/-- A value in normal form is the value of the document that writes it. -/
theorem value?_ofValue {value : Value} (h : value.IsNormal) :
    (ofValue value).value? = some value := by
  match value, h with
  | .null, _ | .bool _, _ | .number _, _ | .string _, _ => rfl
  | .array items, h => simp [ofValue, value?, valuesOfItems?_ofItems h]
  | .object members, h =>
    simp [ofValue, value?, valuesOfMembers?_ofMembers h.2, Value.ofMembers,
      sortEntries_of_ascending h.1]

theorem valuesOfItems?_ofItems {items : List Value} (h : Value.AreNormal items) :
    valuesOfItems? (ofItems items) = some items := by
  match items, h with
  | [], _ => rfl
  | item :: rest, h =>
    simp [ofItems, valuesOfItems?, value?_ofValue h.1, valuesOfItems?_ofItems h.2]

theorem valuesOfMembers?_ofMembers {members : List (String × Value)}
    (h : Value.MembersAreNormal members) :
    valuesOfMembers? (ofMembers members) = some members := by
  match members, h with
  | [], _ => rfl
  | (name, value) :: rest, h =>
    simp [ofMembers, valuesOfMembers?, value?_ofValue h.1, valuesOfMembers?_ofMembers h.2]

end

/-- With no limit on its depth, the document of a value in normal form gives the value back. -/
theorem toValue?_ofValue {value : Value} (h : value.IsNormal) :
    (ofValue value).toValue? none = some value := by
  simp [toValue?, value?_ofValue h]

end Document

end SchemaPlan.Json
