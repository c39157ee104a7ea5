import SchemaPlan.Proofs.Schema.Extension

/-!
# Entries of a data model

A payload lists its models, and every model its fields (`modelEntries`, `fieldEntriesOf`). A schema
that is read from a payload has exactly one model for every entry and one field for every entry of
the model, in the order and with the names of the payload (`ModelMatches`). What makes a field a
relation is the kind that its entry writes: no other field gets relation data, whatever stands in
the entry (`FieldMatches`).
-/

set_option autoImplicit false
set_option relaxedAutoImplicit false

namespace SchemaPlan

open Json

/-! ### Entries of values -/

namespace Json.Record

variable {α : Type} {fields : List String} {value : Value}

/-- The value under a field of the record that a value writes. -/
def memberAt? (fields : List String) (name : String) (value : Value) : Option Value :=
  (ofValue? fields value).bind (·.members.lookup name)

/-- The items of the list under a field, none if there is no list. -/
def itemsAt (fields : List String) (name : String) (value : Value) : List Value :=
  match memberAt? fields name value with
  | some (.array items) => items
  | _ => []

/-- A record that is read from the document of a value is written by the value. -/
theorem exists_written_of_ofDocument? {record : Record Document}
    (h : ofDocument? fields (.ofValue value) = some record) :
    ∃ entries, ofValue? fields value = some entries ∧ entries.written = record := by
  match value, h with
  | .null, h | .bool _, h | .number _, h | .string _, h => cases h
  | .array items, h =>
    rw [ofDocument?_array] at h
    exact Option.map_eq_some_iff.1 h
  | .object members, h =>
    rw [ofDocument?_object] at h
    split at h
    · cases h
      exact ⟨_, rfl, rfl⟩
    · cases h

variable {record : Record Value} {name : String} {read? : Document → Option α} {result : α}

/-- A required field that is read stands in the value, and is read from there. -/
theorem memberAt?_of_required_written (hrecord : ofValue? fields value = some record)
    (h : record.written.required name read? = some result) :
    ∃ item, memberAt? fields name value = some item ∧ read? (.ofValue item) = some result := by
  rw [required_written, required_eq_elim] at h
  rw [memberAt?, hrecord, Option.bind_some]
  cases hitem : record.members.lookup name with
  | none =>
    rw [hitem] at h
    cases h
  | some item =>
    rw [hitem] at h
    exact ⟨item, rfl, h⟩

end Json.Record

namespace Datamodel

/-! ### What the readers accept -/

/-- A text is read from that text alone. -/
theorem eq_of_readText?_ofValue {value : Value} {text : String}
    (h : readText? (.ofValue value) = some text) : value = .string text := by
  cases value <;> cases h
  rfl

theorem name_eq_of_alternative? {text : String} {kind : Kind}
    (h : alternative? Kind.all Kind.name text = some kind) : kind.name = text :=
  beq_iff_eq.1 (List.find?_some h :)

/-- A kind is read from its name, or from an object with nothing under its name. -/
theorem eq_of_readKind?_ofValue {value : Value} {kind : Kind}
    (h : readKind? (.ofValue value) = some kind) :
    value = .string kind.name ∨ value = .object [(kind.name, .null)] := by
  match value, h with
  | .null, h | .bool _, h | .number _, h | .array _, h => cases h
  | .string text, h => exact .inl (by rw [name_eq_of_alternative? h])
  | .object [], h => cases h
  | .object [(name, .null)], h => exact .inr (by rw [name_eq_of_alternative? h])
  | .object [(_, .bool _)], h | .object [(_, .number _)], h | .object [(_, .string _)], h
  | .object [(_, .array _)], h | .object [(_, .object _)], h => cases h
  | .object (_ :: _ :: _), h =>
    rw [Document.ofValue, Document.object_ofMembers, readKind?_ofNamed_eq_none (by simp)] at h
    cases h

/-- Items that are read are read one by one. -/
theorem forall₂_of_readItems? {α : Type} {read? : Document → Option α} {items : List Value}
    {results : List α} (h : readItems? read? (Document.ofItems items) = some results) :
    List.Forall₂ (fun item result ↦ read? (.ofValue item) = some result) items results := by
  induction items generalizing results with
  | nil =>
    cases h
    exact .nil
  | cons item rest ih =>
    rw [Document.ofItems, readItems?] at h
    split at h
    · next result others hresult hothers =>
      cases h
      exact .cons hresult (ih hothers)
    · cases h

/-- A list is read from an array, item by item. -/
theorem items_of_readList?_ofValue {α : Type} {read? : Document → Option α} {value : Value}
    {results : List α} (h : readList? read? (.ofValue value) = some results) :
    ∃ items, value = .array items ∧
      List.Forall₂ (fun item result ↦ read? (.ofValue item) = some result) items results := by
  cases value with
  | array items => exact ⟨items, rfl, forall₂_of_readItems? h⟩
  | _ => cases h

variable {α : Type} {read? : Document → Option α} {fields : List String} {value : Value}
  {record : Record Value} {name : String} {results : List α}

/-- A required list is read from the items under its field. -/
theorem forall₂_itemsAt_of_required (hrecord : Record.ofValue? fields value = some record)
    (h : record.written.required name (readList? read?) = some results) :
    List.Forall₂ (fun item result ↦ read? (.ofValue item) = some result)
      (Record.itemsAt fields name value) results := by
  obtain ⟨list, hlist, hread⟩ := Record.memberAt?_of_required_written hrecord h
  obtain ⟨items, rfl, hitems⟩ := items_of_readList?_ofValue hread
  rwa [Record.itemsAt, hlist]

/-- A list that can be left out is read from the items under its field. -/
theorem forall₂_itemsAt_of_defaulted (hrecord : Record.ofValue? fields value = some record)
    (h : record.written.defaulted name [] (readList? read?) = some results) :
    List.Forall₂ (fun item result ↦ read? (.ofValue item) = some result)
      (Record.itemsAt fields name value) results := by
  cases hlookup : record.members.lookup name with
  | none =>
    rw [Record.defaulted_written, Record.defaulted_eq_elim, hlookup] at h
    cases h
    rw [Record.itemsAt, Record.memberAt?, hrecord, Option.bind_some, hlookup]
    exact .nil
  | some item =>
    refine forall₂_itemsAt_of_required hrecord ?_
    rw [Record.required_written, Record.required_eq_elim, hlookup]
    rwa [Record.defaulted_written, Record.defaulted_eq_elim, hlookup] at h

/-! ### Fields -/

/-- The field is written with the kind, by its name or as an object. -/
def WritesKind (entry : Value) (kind : Kind) : Prop :=
  Record.memberAt? fieldEntries "kind" entry = some (.string kind.name) ∨
    Record.memberAt? fieldEntries "kind" entry = some (.object [(kind.name, .null)])

/-- What a field has of the entry that it was read from. -/
structure FieldMatches (entry : Value) (field : Field) : Prop where
  name_written : Record.memberAt? fieldEntries "name" entry = some (.string field.name)
  plain : ¬ WritesKind entry .object →
    field.relationName = none ∧ field.foreignKeys = [] ∧ field.isOwning = false

/-- A field that is read matches its entry. -/
theorem fieldMatches_of_readField? {limit : Option Nat} {entry : Value} {field : Field}
    (h : readField? limit (.ofValue entry) = some field) : FieldMatches entry field := by
  obtain ⟨record, hrecord, h⟩ := Option.bind_eq_some_iff.1 h
  obtain ⟨name, hname, h⟩ := Option.bind_eq_some_iff.1 h
  obtain ⟨kind, hkind, h⟩ := Option.bind_eq_some_iff.1 h
  -- What the other entries hold is of no matter.
  iterate 10 obtain ⟨_, -, h⟩ := Option.bind_eq_some_iff.1 h
  cases h
  obtain ⟨entries, hentries, rfl⟩ := Record.exists_written_of_ofDocument? hrecord
  obtain ⟨item, hitem, hread⟩ := Record.memberAt?_of_required_written hentries hname
  obtain rfl := eq_of_readText?_ofValue hread
  obtain ⟨value, hvalue, hread⟩ := Record.memberAt?_of_required_written hentries hkind
  refine ⟨hitem, fun hother ↦ ?_⟩
  have hkind : kind ≠ .object := by
    rintro rfl
    refine hother ?_
    rw [WritesKind, hvalue, Option.some.injEq, Option.some.injEq]
    exact eq_of_readKind?_ofValue hread
  have hrelation : (kind == .object) = false := beq_eq_false_iff_ne.2 hkind
  simp [hrelation, Field.isOwning]

/-! ### Models -/

/-- The entries of the fields of a model. -/
def fieldEntriesOf (entry : Value) : List Value := Record.itemsAt ["name", "fields"] "fields" entry

/-- What a model has of the entry that it was read from. -/
structure ModelMatches (entry : Value) (model : Model) : Prop where
  name_written : Record.memberAt? ["name", "fields"] "name" entry = some (.string model.name)
  fields_match : List.Forall₂ FieldMatches (fieldEntriesOf entry) model.fields

/-- A model that is read matches its entry. -/
theorem modelMatches_of_readModel? {limit : Option Nat} {entry : Value} {model : Model}
    (h : readModel? limit (.ofValue entry) = some model) : ModelMatches entry model := by
  obtain ⟨record, hrecord, h⟩ := Option.bind_eq_some_iff.1 h
  obtain ⟨name, hname, h⟩ := Option.bind_eq_some_iff.1 h
  obtain ⟨fields, hfields, h⟩ := Option.bind_eq_some_iff.1 h
  cases h
  obtain ⟨entries, hentries, rfl⟩ := Record.exists_written_of_ofDocument? hrecord
  obtain ⟨item, hitem, hread⟩ := Record.memberAt?_of_required_written hentries hname
  obtain rfl := eq_of_readText?_ofValue hread
  have hentriesOf := forall₂_itemsAt_of_defaulted hentries hfields
  exact ⟨hitem, hentriesOf.imp fun _ _ hread ↦ fieldMatches_of_readField? hread⟩

/-- The entries of the models of a payload. -/
def modelEntries (payload : Value) : List Value := Record.itemsAt ["models"] "models" payload

/-- The models of a payload match its entries, in their order. -/
theorem forall₂_modelMatches_of_ofPayload? {payload : Value} {schema : Schema}
    (h : Schema.ofPayload? payload = some schema) :
    List.Forall₂ ModelMatches (modelEntries payload) schema.models := by
  obtain ⟨record, hrecord, h⟩ := Option.bind_eq_some_iff.1 h
  obtain ⟨models, hmodels, h⟩ := Option.bind_eq_some_iff.1 h
  cases h
  obtain ⟨entries, hentries, rfl⟩ := Record.exists_written_of_ofDocument? hrecord
  have hentriesOf := forall₂_itemsAt_of_required hentries hmodels
  exact hentriesOf.imp fun _ _ hread ↦ modelMatches_of_readModel? hread

end Datamodel

open Datamodel

/-- Members of unknown names change neither the schema of a payload nor whether it has one, and a
schema has the models and the fields that its payload lists. Fields of any other kind than a
relation have nothing of a relation. -/
theorem Schema.ofPayload?_reads_entries :
    (∀ payload extended : Value, ExtendsPayload payload extended →
      Schema.ofPayload? extended = Schema.ofPayload? payload) ∧
    ∀ (payload : Value) (schema : Schema), Schema.ofPayload? payload = some schema →
      List.Forall₂ ModelMatches (modelEntries payload) schema.models :=
  ⟨fun _ _ h ↦ (Schema.ofPayload?_eq_of_extends h).symm,
    fun _ _ ↦ forall₂_modelMatches_of_ofPayload?⟩

/-- A payload of one model with one plain field that claims to be part of a relation, with further
members of its own, of the model and of the field. -/
def notePayload (top inModel inField : List (String × Value)) : Value :=
  let field : Value := .object ([("kind", .string "scalar"), ("name", .string "id"),
    ("relationName", .string "NoteToUser"), ("type", .string "Int")] ++ inField)
  let model : Value := .object ([("fields", .array [field]), ("name", .string "Note")] ++ inModel)
  .object ([("models", .array [model])] ++ top)

/-- Further members at all three levels change nothing. -/
theorem Schema.ofPayload?_notePayload :
    Schema.ofPayload? (notePayload [("version", .array [])] [("namespace", .null)]
        [("visibility", .string "internal")]) = Schema.ofPayload? (notePayload [] [] []) ∧
      ∃ schema, Schema.ofPayload? (notePayload [] [] []) = some schema ∧
        List.Forall₂ ModelMatches (modelEntries (notePayload [] [] [])) schema.models := by
  obtain ⟨hextended, haccepted⟩ := Schema.ofPayload?_reads_entries
  have hsome : (Schema.ofPayload? (notePayload [] [] [])).isSome := by decide +kernel
  obtain ⟨schema, hschema⟩ := Option.isSome_iff_exists.1 hsome
  refine ⟨hextended _ _ ?_, schema, hschema, haccepted _ _ hschema⟩
  refine .object (.kept (.inr ⟨rfl, _, _, rfl, rfl, .cons ?_ .nil⟩) (.added (by decide) .nil))
  refine .object (.kept (.inr ⟨rfl, _, _, rfl, rfl, .cons ?_ .nil⟩)
    (.kept (.inl rfl) (.added (by decide) .nil)))
  exact .object (.kept rfl (.kept rfl (.kept rfl (.kept rfl (.added (by decide) .nil)))))

end SchemaPlan
