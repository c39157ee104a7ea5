import SchemaPlan.Proofs.Schema.Payload

/-!
# Data models with further members

The host may send more than the generator reads. A payload is extended by putting members of further
names into its outermost object, its models and its fields (`ExtendsPayload`). An extended record
has the same fields (`AddsMembers.writesOnce_eq`, `AddsMembers.lookup_rel`), so every reader gives
for it what it gives for the record that was extended, from fields to whole schemas
(`Schema.ofPayload?_eq_of_extends`). What stands inside of a default stays as it is, since there the
names decide what the default is.
-/

set_option autoImplicit false
set_option relaxedAutoImplicit false

namespace SchemaPlan

open Json

/-! ### Records that values write -/

/-- The documents of items are those of each item. -/
theorem Json.Document.ofItems_eq_map (items : List Value) :
    Document.ofItems items = items.map Document.ofValue := by
  induction items with
  | nil => rfl
  | cons item rest ih => rw [Document.ofItems, ih, List.map_cons]

namespace Json.Record

variable {α : Type} {fields : List String}

/-- The members of a document for the members of a value. -/
def writtenMembers (members : List (String × Value)) : List (String × Document) :=
  members.map fun member ↦ (member.1, .ofValue member.2)

/-- The record of a document for a record of a value. -/
def written (record : Record Value) : Record Document :=
  ⟨writtenMembers record.members, record.positional⟩

theorem lookup_writtenMembers (members : List (String × Value)) (name : String) :
    (writtenMembers members).lookup name = (members.lookup name).map Document.ofValue := by
  induction members with
  | nil => rfl
  | cons member rest ih =>
    rw [writtenMembers, List.map_cons, ← Prod.eta member, lookup_entry_cons, lookup_entry_cons,
      ← writtenMembers, ih]
    split <;> rfl

/-- A required field is read from a written record as from its value. -/
theorem required_written (record : Record Value) (name : String) (read? : Document → Option α) :
    record.written.required name read? =
      record.required name fun value ↦ read? (.ofValue value) := by
  rw [required_eq_elim, required_eq_elim, written, lookup_writtenMembers, Option.elim_map]
  rfl

/-- A field that has a default is read from a written record as from its value. -/
theorem defaulted_written (record : Record Value) (name : String) (default : α)
    (read? : Document → Option α) :
    record.written.defaulted name default read? =
      record.defaulted name default fun value ↦ read? (.ofValue value) := by
  rw [defaulted_eq_elim, defaulted_eq_elim, written, lookup_writtenMembers, Option.elim_map]
  rfl

/-- An object is read as a record of its members when it writes every field once at most. -/
theorem ofDocument?_object (members : List (String × Value)) :
    ofDocument? fields (.ofValue (.object members)) =
      if writesOnce fields (writtenMembers members) then some (written ⟨members, false⟩)
      else none := by
  rw [Document.ofValue, Document.object_ofMembers, Document.ofNamed, ofDocument?,
    namedMembers?_map]
  rfl

/-- An array is read as a record of its items in the order of the fields. -/
theorem ofDocument?_array (items : List Value) :
    ofDocument? fields (.ofValue (.array items)) = (ofItems? fields items).map written := by
  have hzip : fields.zip (items.map Document.ofValue) = writtenMembers (fields.zip items) := by
    rw [writtenMembers, List.zip_map_right]
    rfl
  rw [Document.ofValue, ofDocument?, ofItems?, ofItems?, Document.ofItems_eq_map, List.length_map,
    hzip]
  split <;> rfl

end Json.Record

namespace Datamodel

/-! ### Extended records -/

/-- The second list has the members of the first, with values that `inside` relates to theirs, and
anywhere among them any number of members whose names are none of the fields. -/
inductive AddsMembers (fields : List String) (inside : String → Value → Value → Prop) :
    List (String × Value) → List (String × Value) → Prop
  | nil : AddsMembers fields inside [] []
  | kept {name : String} {value other : Value} {members others : List (String × Value)}
    (hvalue : inside name value other) (hrest : AddsMembers fields inside members others) :
    AddsMembers fields inside ((name, value) :: members) ((name, other) :: others)
  | added {name : String} {other : Value} {members others : List (String × Value)}
    (hname : name ∉ fields) (hrest : AddsMembers fields inside members others) :
    AddsMembers fields inside members ((name, other) :: others)

/-- The second value writes the record with these fields that the first writes, extended by further
members if it is an object. An array has no room for members, but its items can be extended; what
stands beyond the fields makes it unreadable in any case. -/
inductive ExtendsRecord (fields : List String) (inside : String → Value → Value → Prop) :
    Value → Value → Prop
  | same (value : Value) : ExtendsRecord fields inside value value
  | object {members others : List (String × Value)}
    (hmembers : AddsMembers fields inside members others) :
    ExtendsRecord fields inside (.object members) (.object others)
  | array {items others : List Value} (hlength : items.length = others.length)
    (hitems : AddsMembers fields inside (fields.zip items) (fields.zip others)) :
    ExtendsRecord fields inside (.array items) (.array others)

/-- The values are equal, or they stand under the key and are lists with items that are extended one
by one. -/
def ExtendsItemsAt (key : String) (extends? : Value → Value → Prop) (name : String)
    (value other : Value) : Prop :=
  value = other ∨ name = key ∧ ∃ items others,
    value = .array items ∧ other = .array others ∧ List.Forall₂ extends? items others

/-- The second value is the field that the first is, with further members. -/
def ExtendsField : Value → Value → Prop := ExtendsRecord fieldEntries fun _ ↦ Eq

/-- The second value is the model that the first is, with further members in it and its fields. -/
def ExtendsModel : Value → Value → Prop :=
  ExtendsRecord ["name", "fields"] (ExtendsItemsAt "fields" ExtendsField)

/-- The second value is the payload that the first is, with further members in it, its models and
their fields. -/
def ExtendsPayload : Value → Value → Prop :=
  ExtendsRecord ["models"] (ExtendsItemsAt "models" ExtendsModel)

/-! ### The fields of an extended record -/

variable {fields : List String} {inside : String → Value → Value → Prop}

namespace AddsMembers

variable {members others : List (String × Value)} {field : String}

/-- Further members are not counted among the fields. -/
theorem count_eq (h : AddsMembers fields inside members others) (hfield : field ∈ fields) :
    (members.map (·.1)).count field = (others.map (·.1)).count field := by
  induction h with
  | nil => rfl
  | kept _ _ ih => rw [List.map_cons, List.map_cons, List.count_cons, List.count_cons, ih]
  | @added name _ _ _ hname _ ih =>
    have hne : name ≠ field := by
      rintro rfl
      exact hname hfield
    rw [List.map_cons, List.count_cons_of_ne hne, ih]

/-- Further members do not change what stands under a field. -/
theorem lookup_rel (h : AddsMembers fields inside members others) (hfield : field ∈ fields) :
    Option.Rel (inside field) (members.lookup field) (others.lookup field) := by
  induction h with
  | nil => exact .none
  | @kept name _ _ _ _ hvalue _ ih =>
    rw [lookup_entry_cons, lookup_entry_cons]
    by_cases heq : field = name
    · subst heq
      rw [if_pos rfl, if_pos rfl]
      exact .some hvalue
    · rwa [if_neg heq, if_neg heq]
  | @added name _ _ _ hname _ ih =>
    have hne : field ≠ name := by
      rintro rfl
      exact hname hfield
    rwa [lookup_entry_cons, if_neg hne]

/-- Further members do not make a field stand twice. -/
theorem writesOnce_eq (h : AddsMembers fields inside members others) :
    Record.writesOnce fields (Record.writtenMembers members) =
      Record.writesOnce fields (Record.writtenMembers others) := by
  have hnames (members : List (String × Value)) :
      (Record.writtenMembers members).map (·.1) = members.map (·.1) := by
    rw [Record.writtenMembers, List.map_map]
    rfl
  rw [Record.writesOnce, Record.writesOnce, hnames, hnames, Bool.eq_iff_iff, List.all_eq_true,
    List.all_eq_true]
  exact forall₂_congr fun field hfield ↦ by rw [h.count_eq hfield]

end AddsMembers

/-- Under every field, the records have values that `inside` relates, or both have none. -/
def SameEntries (fields : List String) (inside : String → Value → Value → Prop)
    (record other : Record Value) : Prop :=
  ∀ field ∈ fields, Option.Rel (inside field) (record.members.lookup field)
    (other.members.lookup field)

/-- A reader that looks at the fields alone reads an extended record alike. -/
theorem ExtendsRecord.bind_ofDocument?_eq {α : Type} {value other : Value}
    {next : Record Document → Option α} (h : ExtendsRecord fields inside value other)
    (hnext : ∀ record other : Record Value, SameEntries fields inside record other →
      next record.written = next other.written) :
    (Record.ofDocument? fields (.ofValue value)).bind next =
      (Record.ofDocument? fields (.ofValue other)).bind next := by
  cases h with
  | same => rfl
  | object hmembers =>
    rw [Record.ofDocument?_object, Record.ofDocument?_object, hmembers.writesOnce_eq]
    split
    · exact hnext _ _ fun field hfield ↦ hmembers.lookup_rel hfield
    · rfl
  | array hlength hitems =>
    rw [Record.ofDocument?_array, Record.ofDocument?_array, Record.ofItems?, Record.ofItems?,
      hlength]
    split
    · exact hnext _ _ fun field hfield ↦ hitems.lookup_rel hfield
    · rfl

namespace SameEntries

variable {α : Type} {record other : Record Value} {field : String}
  {read? : Document → Option α}

/-- A required field is read alike from records with the same fields. -/
theorem required_eq (h : SameEntries fields inside record other) (hfield : field ∈ fields)
    (hread : ∀ ⦃value other : Value⦄, inside field value other →
      read? (.ofValue value) = read? (.ofValue other)) :
    record.written.required field read? = other.written.required field read? := by
  rw [Record.required_written, Record.required_written, Record.required_eq_elim,
    Record.required_eq_elim, Record.elim_eq_of_rel (h field hfield) none hread]

/-- A field that has a default is read alike from records with the same fields. -/
theorem defaulted_eq (h : SameEntries fields inside record other) (hfield : field ∈ fields)
    (default : α)
    (hread : ∀ ⦃value other : Value⦄, inside field value other →
      read? (.ofValue value) = read? (.ofValue other)) :
    record.written.defaulted field default read? =
      other.written.defaulted field default read? := by
  rw [Record.defaulted_written, Record.defaulted_written, Record.defaulted_eq_elim,
    Record.defaulted_eq_elim, Record.elim_eq_of_rel (h field hfield) (some default) hread]

end SameEntries

/-! ### Readers of extended records -/

variable {α : Type} {read? : Document → Option α} {extends? : Value → Value → Prop}
  {value other : Value}

/-- A list is read alike when its items are extended and each is read alike. -/
theorem ExtendsItemsAt.readList?_eq {key name : String}
    (h : ExtendsItemsAt key extends? name value other)
    (hread : ∀ value other, extends? value other →
      read? (.ofValue value) = read? (.ofValue other)) :
    readList? read? (.ofValue value) = readList? read? (.ofValue other) := by
  obtain rfl | ⟨-, items, others, rfl, rfl, hitems⟩ := h
  · rfl
  · rw [Document.ofValue, Document.ofValue, Document.ofItems_eq_map, Document.ofItems_eq_map]
    refine readItems?_congr (fun _ _ heq ↦ heq) ?_
    exact List.forall₂_map_left_iff.2 (List.forall₂_map_right_iff.2 (hitems.imp hread))

/-- Only the list under the key has items that are extended. -/
theorem ExtendsItemsAt.eq_of_ne {key name : String}
    (h : ExtendsItemsAt key extends? name value other) (hname : name ≠ key) : value = other :=
  h.resolve_right fun hkey ↦ hname hkey.1

/-- A field with further members is read alike. -/
theorem readField?_eq_of_extends {limit : Option Nat} (h : ExtendsField value other) :
    readField? limit (.ofValue value) = readField? limit (.ofValue other) := by
  refine h.bind_ofDocument?_eq fun record other hsame ↦ ?_
  have hrequired {α : Type} (field : String) (read? : Document → Option α)
      (hfield : field ∈ fieldEntries) :
      record.written.required field read? = other.written.required field read? :=
    hsame.required_eq hfield fun _ _ heq ↦ by rw [heq]
  have hdefaulted {α : Type} (field : String) (default : α) (read? : Document → Option α)
      (hfield : field ∈ fieldEntries) :
      record.written.defaulted field default read? = other.written.defaulted field default read? :=
    hsame.defaulted_eq hfield default fun _ _ heq ↦ by rw [heq]
  rw [hrequired "name" _ (by decide), hrequired "kind" _ (by decide),
    hrequired "type" _ (by decide), hdefaulted "isRequired" _ _ (by decide),
    hdefaulted "isList" _ _ (by decide), hdefaulted "isUnique" _ _ (by decide),
    hdefaulted "isId" _ _ (by decide), hdefaulted "relationName" _ _ (by decide),
    hdefaulted "relationFromFields" _ _ (by decide), hdefaulted "default" _ _ (by decide),
    hdefaulted "isUpdatedAt" _ _ (by decide), hdefaulted "nativeType" _ _ (by decide)]

/-- A model with further members, in it and its fields, is read alike. -/
theorem readModel?_eq_of_extends {limit : Option Nat} (h : ExtendsModel value other) :
    readModel? limit (.ofValue value) = readModel? limit (.ofValue other) := by
  refine h.bind_ofDocument?_eq fun record other hsame ↦ ?_
  rw [hsame.required_eq (by simp) fun _ _ hname ↦ by rw [hname.eq_of_ne (by decide)],
    hsame.defaulted_eq (by simp) [] fun _ _ hfields ↦
      hfields.readList?_eq fun _ _ ↦ readField?_eq_of_extends]

end Datamodel

open Datamodel

/-- Members that the generator does not know change nothing, wherever they stand. -/
theorem Schema.ofPayload?_eq_of_extends {value other : Value} (h : ExtendsPayload value other) :
    Schema.ofPayload? value = Schema.ofPayload? other := by
  refine h.bind_ofDocument?_eq fun record other hsame ↦ ?_
  rw [hsame.required_eq (by simp) fun _ _ hmodels ↦
    hmodels.readList?_eq fun _ _ ↦ readModel?_eq_of_extends]

end SchemaPlan
