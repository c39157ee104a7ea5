import Mathlib.Data.List.Count
import SchemaPlan.Config.Setting
import SchemaPlan.Proofs.Json.Form
import SchemaPlan.Proofs.Schema.Payload

/-!
# Inputs of a run as texts and as values

The host passes a data model and a bag of settings as JSON, each as a text or as the value of one. A
data model is read alike from both when the text repeats no name. Settings are read alike when every
value under a repeated key is one that a setting can have: the text is refused for a value that
cannot be read even if a later one takes its place, and then the value may be read where the text is
not.
-/

set_option autoImplicit false
set_option relaxedAutoImplicit false

namespace SchemaPlan

open Json

namespace Json.Document

/-! ### Flat values -/

/-- Whether this is a string. -/
def isText : Document → Bool
  | .string _ => true
  | _ => false

/-- Whether this is a truth value, a string or a list of strings. -/
def isFlat : Document → Bool
  | .bool _ | .string _ => true
  | .array items => items.all isText
  | _ => false

/-- Whether every value under a name that the object repeats is a truth value, a string or a list of
strings. -/
def repeatsOnlyFlat : Document → Bool
  | .object members =>
    members.all fun member ↦ decide ((members.map (·.1)).count member.1 ≤ 1) || member.2.isFlat
  | _ => true

end Json.Document

/-! ### Settings -/

namespace Datamodel

/-- A text is read from a document as it is from its value. -/
theorem readText?_eq {document : Document} {value : Value} (h : document.value? = some value) :
    readText? document = ofJson? value := by
  cases document with
  | null | bool _ =>
    cases h
    rfl
  | string _ =>
    obtain ⟨_, rfl, rfl⟩ := Option.map_eq_some_iff.1 h
    rfl
  | number _ | array _ | object _ =>
    obtain ⟨_, -, rfl⟩ := Option.map_eq_some_iff.1 h
    rfl

/-- Texts are read from documents as they are from their values. -/
theorem readTexts?_eq {items : List Document} {values : List Value}
    (h : Document.valuesOfItems? items = some values) :
    readItems? readText? items = readItems? ofJson? values := by
  induction items generalizing values with
  | nil =>
    cases h
    rfl
  | cons item rest ih =>
    obtain ⟨value, others, hvalue, hothers, rfl⟩ := Document.valuesOfItems?_cons_eq_some h
    rw [readItems?, readItems?, readText?_eq hvalue, ih hothers]

theorem readTexts?_ne_none {items : List Document} {values : List Value}
    (h : Document.valuesOfItems? items = some values) (htexts : items.all Document.isText) :
    readItems? readText? items ≠ none := by
  induction items generalizing values with
  | nil => nofun
  | cons item rest ih =>
    obtain ⟨value, others, hvalue, hothers, rfl⟩ := Document.valuesOfItems?_cons_eq_some h
    obtain ⟨hitem, hrest⟩ := Bool.and_eq_true_iff.1 htexts
    obtain ⟨read, hread⟩ := Option.ne_none_iff_exists'.1 (ih hothers hrest)
    cases item with
    | string _ =>
      obtain ⟨text, rfl, rfl⟩ := Option.map_eq_some_iff.1 hvalue
      rw [readItems?, hread]
      nofun
    | _ => cases hitem

end Datamodel

namespace Setting

theorem ofDocument?_eq {document : Document} {value : Value} (h : document.value? = some value) :
    ofDocument? document = ofJson? value := by
  cases document with
  | null | bool _ =>
    cases h
    rfl
  | string _ =>
    obtain ⟨_, rfl, rfl⟩ := Option.map_eq_some_iff.1 h
    rfl
  | array items =>
    obtain ⟨values, hvalues, rfl⟩ := Option.map_eq_some_iff.1 h
    exact congrArg (Option.map Setting.list) (Datamodel.readTexts?_eq hvalues)
  | number _ | object _ =>
    obtain ⟨_, -, rfl⟩ := Option.map_eq_some_iff.1 h
    rfl

theorem ofDocument?_ne_none {document : Document} {value : Value} (h : document.value? = some value)
    (hflat : document.isFlat) : ofDocument? document ≠ none := by
  cases document with
  | bool _ => nofun
  | string _ =>
    obtain ⟨_, rfl, rfl⟩ := Option.map_eq_some_iff.1 h
    nofun
  | array items =>
    obtain ⟨values, hvalues, rfl⟩ := Option.map_eq_some_iff.1 h
    have hread := Datamodel.readTexts?_ne_none hvalues hflat
    obtain ⟨texts, htexts⟩ := Option.ne_none_iff_exists'.1 hread
    rw [ofDocument?, htexts]
    nofun
  | _ => cases hflat

end Setting

namespace Settings

variable {members : List (String × Document)} {values : List (String × Value)}

/-- Settings are read from members as they are from their values. -/
theorem readMembers?_eq (h : List.Forall₂ Document.MemberWrites members values) :
    readMembers? Setting.ofDocument? members = readMembers? ofJson? values := by
  induction h with
  | nil => rfl
  | cons hmember _ ih =>
    rw [readMembers?, readMembers?, hmember.name_eq, Setting.ofDocument?_eq hmember.value_eq, ih]

/-- Every entry is written by a member. -/
theorem exists_member_of_forall₂ (h : List.Forall₂ Document.MemberWrites members values)
    {entry : String × Value} (hentry : entry ∈ values) :
    ∃ member ∈ members, Document.MemberWrites member entry := by
  induction h with
  | nil => cases hentry
  | cons hmember _ ih =>
    rcases List.mem_cons.1 hentry with rfl | hentry
    · exact ⟨_, List.mem_cons_self, hmember⟩
    · obtain ⟨member, hmem, hwrites⟩ := ih hentry
      exact ⟨member, List.mem_cons_of_mem _ hmem, hwrites⟩

/-- A name that repeats has flat values, so a value that is no setting has a name of its own. -/
theorem count_le_one_of_unreadable (h : List.Forall₂ Document.MemberWrites members values)
    (hflat : (Document.ofNamed members).repeatsOnlyFlat) {entry : String × Value}
    (hentry : entry ∈ values) (hread : (ofJson? entry.2 : Option Setting) = none) :
    (values.map (·.1)).count entry.1 ≤ 1 := by
  obtain ⟨member, hmember, hwrites⟩ := exists_member_of_forall₂ h hentry
  have hmembers := List.all_eq_true.1 hflat (some member.1, member.2) (List.mem_map_of_mem hmember)
  rcases Bool.or_eq_true_iff.1 hmembers with hcount | hitem
  · have hnames : (members.map fun member ↦ (some member.1, member.2)).map (·.1) =
        (members.map (·.1)).map some := by simp
    rw [hnames, List.count_map_of_injective _ some (Option.some_injective String)] at hcount
    rw [← Document.names_eq_of_forall₂ h, ← hwrites.name_eq]
    exact of_decide_eq_true hcount
  · refine absurd ?_ (Setting.ofDocument?_ne_none hwrites.value_eq hitem)
    rw [Setting.ofDocument?_eq hwrites.value_eq, hread]

theorem ofDocument?_eq {document : Document} {value : Value} (h : document.value? = some value)
    (hflat : document.repeatsOnlyFlat) : ofDocument? document = ofJson? value := by
  cases document with
  | object members =>
    obtain ⟨values, hvalues, rfl⟩ := Option.map_eq_some_iff.1 h
    obtain ⟨named, rfl, hwrites⟩ := Document.exists_named_of_valuesOfMembers? hvalues
    have hunreadable : ∀ entry ∈ values, (ofJson? entry.2 : Option Setting) = none →
        (values.map (·.1)).count entry.1 ≤ 1 :=
      fun _ ↦ count_le_one_of_unreadable hwrites hflat
    rw [ofDocument?, Record.namedMembers?_map, Option.bind_eq_bind, Option.bind_some,
      readMembers?_eq hwrites]
    exact (Option.map_eq_bind.symm).trans (readMembers?_sortEntries hunreadable).symm
  | null | bool _ =>
    cases h
    rfl
  | number _ | string _ | array _ =>
    obtain ⟨_, -, rfl⟩ := Option.map_eq_some_iff.1 h
    rfl

end Settings

/-! ### A run -/

/-- A text that is read as a document and as a value nests no deeper than is allowed, and the value
is that of the document. -/
theorem Json.Document.depth_le_and_value?_of_ofText? {text : String} {document : Document}
    {value : Value} (hdocument : Document.ofText? text = some document)
    (hvalue : Value.ofText? text = some value) :
    document.depth ≤ nestingLimit ∧ document.value? = some value := by
  rw [Value.ofText?, hdocument] at hvalue
  simpa [toValue?] using hvalue

namespace Plan

/-- For a text that has a value, the text and the value give the same data model, or neither gives
one, if no object of the text repeats a name. They give the same settings, or neither does, if every
value under a name that the outermost object repeats is a truth value, a string or a list of
strings. -/
theorem readings_agree {text : String} {document : Document} {value : Value}
    (hdocument : Document.ofText? text = some document)
    (hvalue : Value.ofText? text = some value) :
    (document.hasDistinctNames → Schema.ofText? text = Schema.ofPayload? value) ∧
    (document.repeatsOnlyFlat → Settings.ofText? text = ofJson? value) := by
  obtain ⟨hdepth, hwritten⟩ := Document.depth_le_and_value?_of_ofText? hdocument hvalue
  refine ⟨fun hnames ↦ ?_, fun hflat ↦ ?_⟩
  · rw [Schema.ofText?, hdocument]
    exact Schema.readsAlike_ofDocument? ⟨hnames, hdepth, value, hwritten, rfl⟩
  · rw [Settings.ofText?, hdocument]
    exact Settings.ofDocument?_eq hwritten hflat

/-- A data model whose records are arrays, down to one field, which is an object. -/
def itemText : String :=
  "[[[\"Item\", [\x7b\"type\": \"String\", \"name\": \"id\", " ++
    "\"kind\": \x7b\"scalar\": null\x7d, \"default\": \x7b\"name\": \"cuid\"\x7d\x7d]]]]"

/-- Settings that repeat a key with values of two shapes. -/
def repeatedText : String :=
  "\x7b\"models\": [\"Item\"], \"output\": \"out\", \"models\": \"Item\"\x7d"

/-- A schema and settings, the settings with a name that repeats. -/
theorem readings_agree_item :
    (∃ document value, Document.ofText? itemText = some document ∧ document.hasDistinctNames ∧
      Value.ofText? itemText = some value ∧
      Schema.ofText? itemText = Schema.ofPayload? value ∧ (Schema.ofText? itemText).isSome) ∧
    ∃ document value, Document.ofText? repeatedText = some document ∧ document.repeatsOnlyFlat ∧
      Value.ofText? repeatedText = some value ∧
      Settings.ofText? repeatedText = ofJson? value ∧ (Settings.ofText? repeatedText).isSome := by
  constructor
  · have hread : (Document.ofText? itemText).map (·.hasDistinctNames) = some true := by
      decide +kernel
    have hsome : (Value.ofText? itemText).isSome := by decide +kernel
    obtain ⟨document, hdocument, hnames⟩ := Option.map_eq_some_iff.1 hread
    obtain ⟨value, hvalue⟩ := Option.isSome_iff_exists.1 hsome
    have hagree := (readings_agree hdocument hvalue).1 hnames
    exact ⟨document, value, hdocument, hnames, hvalue, hagree, by decide +kernel⟩
  · have hread : (Document.ofText? repeatedText).map (·.repeatsOnlyFlat) = some true := by
      decide +kernel
    have hsome : (Value.ofText? repeatedText).isSome := by decide +kernel
    obtain ⟨document, hdocument, hflat⟩ := Option.map_eq_some_iff.1 hread
    obtain ⟨value, hvalue⟩ := Option.isSome_iff_exists.1 hsome
    have hagree := (readings_agree hdocument hvalue).2 hflat
    exact ⟨document, value, hdocument, hflat, hvalue, hagree, by decide +kernel⟩

/-- The value under the repeated key that cannot be read is lost in the value of the text. -/
example : Settings.ofText? "\x7b\"output\": null, \"output\": \"out\"\x7d" = none ∧
    (Value.ofText? "\x7b\"output\": null, \"output\": \"out\"\x7d").bind ofJson? =
      some (NameMap.ofList [("output", Setting.text "out")]) := by
  decide +kernel

end Plan

end SchemaPlan
