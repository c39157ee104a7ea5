import SchemaPlan.Json.Record
import SchemaPlan.Proofs.NameMap

/-!
# Documents and the values they write

A text is read as the document that it is, and a value as the document that writes it. The second
document has the members of every object in the order of their names and nothing in it that is
without content. Where no object of the first repeats a name, the two are alike item by item and
member by member (`Restates`): lists have as many items, and records the same fields
(`Record.ofDocument?_restates`).
-/

set_option autoImplicit false
set_option relaxedAutoImplicit false

namespace SchemaPlan.Json

/-! ### Values of documents are normal -/

namespace Value

theorem membersAreNormal_iff {members : List (String × Value)} :
    MembersAreNormal members ↔ ∀ member ∈ members, member.2.IsNormal := by
  induction members with
  | nil => simp [MembersAreNormal]
  | cons member rest ih => rw [MembersAreNormal, ih, List.forall_mem_cons]

theorem isNormal_ofMembers {members : List (String × Value)} (h : MembersAreNormal members) :
    (ofMembers members).IsNormal :=
  ⟨ascending_sortEntries members,
    membersAreNormal_iff.2 fun member hmember ↦
      membersAreNormal_iff.1 h member (mem_sortEntries hmember)⟩

end Value

namespace Document

/-- Items have values when the first has one and the rest do. -/
theorem valuesOfItems?_cons_eq_some {item : Document} {rest : List Document} {values : List Value}
    (h : valuesOfItems? (item :: rest) = some values) :
    ∃ value others, item.value? = some value ∧ valuesOfItems? rest = some others ∧
      values = value :: others := by
  rw [valuesOfItems?] at h
  split at h
  · next value others hvalue hothers =>
    cases h
    exact ⟨value, others, hvalue, hothers, rfl⟩
  · cases h

/-- Members have values when the first has a name and a value and the rest do. -/
theorem valuesOfMembers?_cons_eq_some {name : Option String} {item : Document}
    {rest : List (Option String × Document)} {values : List (String × Value)}
    (h : valuesOfMembers? ((name, item) :: rest) = some values) :
    ∃ text value others, name = some text ∧ item.value? = some value ∧
      valuesOfMembers? rest = some others ∧ values = (text, value) :: others := by
  unfold valuesOfMembers? at h
  split at h
  · next text value others hvalue hothers =>
    cases h
    exact ⟨text, value, others, rfl, hvalue, hothers, rfl⟩
  · cases h

/-- The entry has the name and the value of the member. -/
structure MemberWrites (member : String × Document) (entry : String × Value) : Prop where
  name_eq : member.1 = entry.1
  value_eq : member.2.value? = some entry.2

/-- Members that have values have names. -/
theorem exists_named_of_valuesOfMembers? {members : List (Option String × Document)}
    {values : List (String × Value)} (h : valuesOfMembers? members = some values) :
    ∃ named : List (String × Document),
      members = named.map (fun member ↦ (some member.1, member.2)) ∧
      List.Forall₂ MemberWrites named values := by
  induction members generalizing values with
  | nil =>
    cases h
    exact ⟨[], rfl, .nil⟩
  | cons member rest ih =>
    obtain ⟨name, value, others, hname, hvalue, hothers, rfl⟩ := valuesOfMembers?_cons_eq_some h
    obtain ⟨named, rfl, hrest⟩ := ih hothers
    refine ⟨(name, member.2) :: named, ?_, .cons ⟨rfl, hvalue⟩ hrest⟩
    rw [List.map_cons, ← hname]

theorem names_eq_of_forall₂ {members : List (String × Document)} {values : List (String × Value)}
    (h : List.Forall₂ MemberWrites members values) : members.map (·.1) = values.map (·.1) := by
  induction h with
  | nil => rfl
  | cons hmember _ ih => rw [List.map_cons, List.map_cons, hmember.name_eq, ih]

mutual

/-- The value of a document is in normal form. -/
theorem isNormal_of_value? {document : Document} {value : Value}
    (h : document.value? = some value) : value.IsNormal := by
  match document, h with
  | .null, h | .bool _, h => cases h; trivial
  | .number (some _), h | .string (some _), h => cases h; trivial
  | .number none, h | .string none, h => cases h
  | .array items, h =>
    obtain ⟨values, hvalues, rfl⟩ := Option.map_eq_some_iff.1 h
    exact areNormal_of_valuesOfItems? hvalues
  | .object members, h =>
    obtain ⟨values, hvalues, rfl⟩ := Option.map_eq_some_iff.1 h
    exact Value.isNormal_ofMembers (membersAreNormal_of_valuesOfMembers? hvalues)

theorem areNormal_of_valuesOfItems? {items : List Document} {values : List Value}
    (h : valuesOfItems? items = some values) : Value.AreNormal values := by
  match items, h with
  | [], h => cases h; trivial
  | item :: rest, h =>
    obtain ⟨value, others, hvalue, hothers, rfl⟩ := valuesOfItems?_cons_eq_some h
    exact ⟨isNormal_of_value? hvalue, areNormal_of_valuesOfItems? hothers⟩

theorem membersAreNormal_of_valuesOfMembers? {members : List (Option String × Document)}
    {values : List (String × Value)} (h : valuesOfMembers? members = some values) :
    Value.MembersAreNormal values := by
  match members, h with
  | [], h => cases h; trivial
  | (name, item) :: rest, h =>
    obtain ⟨text, value, others, rfl, hvalue, hothers, rfl⟩ := valuesOfMembers?_cons_eq_some h
    exact ⟨isNormal_of_value? hvalue, membersAreNormal_of_valuesOfMembers? hothers⟩

end

/-! ### Repeated names -/

mutual

/-- Whether no object in the document repeats a name. -/
def hasDistinctNames : Document → Bool
  | .null | .bool _ | .number _ | .string _ => true
  | .array items => itemsHaveDistinctNames items
  | .object members => decide (members.map (·.1)).Nodup && membersHaveDistinctNames members

/-- Whether no object in the items repeats a name. -/
def itemsHaveDistinctNames : List Document → Bool
  | [] => true
  | item :: rest => item.hasDistinctNames && itemsHaveDistinctNames rest

/-- Whether no object in the values of the members repeats a name. -/
def membersHaveDistinctNames : List (Option String × Document) → Bool
  | [] => true
  | (_, value) :: rest => value.hasDistinctNames && membersHaveDistinctNames rest

end

/-! ### The document that writes the value -/

/-- `other` writes the value of `document`, which repeats no name and nests no deeper than
`depth`. -/
structure Restates (depth : Nat) (document other : Document) : Prop where
  hasDistinctNames : document.hasDistinctNames
  depth_le : document.depth ≤ depth
  writes : ∃ value, document.value? = some value ∧ ofValue value = other

/-- `other` has the name of `member` and restates its value. -/
structure MemberRestates (depth : Nat) (member other : String × Document) : Prop where
  name_eq : member.1 = other.1
  restates : Restates depth member.2 other.2

/-- The object of the members. -/
def ofNamed (members : List (String × Document)) : Document :=
  .object (members.map fun member ↦ (some member.1, member.2))

/-- What a document and one that restates it look like from outside. Members may stand in another
order. -/
inductive SameShape (depth : Nat) : Document → Document → Prop
  | null : SameShape depth .null .null
  | bool (value : Bool) : SameShape depth (.bool value) (.bool value)
  | number (value : Number) : SameShape depth (.number (some value)) (.number (some value))
  | string (text : String) : SameShape depth (.string (some text)) (.string (some text))
  | array {items others : List Document} (hitems : List.Forall₂ (Restates depth) items others) :
    SameShape depth (.array items) (.array others)
  | object {members restated others : List (String × Document)}
    (hnodup : (members.map (·.1)).Nodup) (hothers : (others.map (·.1)).Nodup)
    (hmembers : List.Forall₂ (MemberRestates depth) members restated)
    (hperm : restated.Perm others) : SameShape depth (ofNamed members) (ofNamed others)

variable {depth : Nat}

/-- The documents that write the values of items restate the items. -/
theorem forall₂_restates_of_valuesOfItems? {items : List Document} {values : List Value}
    (hvalues : valuesOfItems? items = some values) (hnames : itemsHaveDistinctNames items)
    (hdepth : depthOfItems items ≤ depth) :
    List.Forall₂ (Restates depth) items (ofItems values) := by
  induction items generalizing values with
  | nil =>
    cases hvalues
    exact List.Forall₂.nil
  | cons item rest ih =>
    obtain ⟨value, others, hvalue, hothers, rfl⟩ := valuesOfItems?_cons_eq_some hvalues
    rw [itemsHaveDistinctNames, Bool.and_eq_true] at hnames
    rw [depthOfItems, Nat.max_le] at hdepth
    exact List.Forall₂.cons ⟨hnames.1, hdepth.1, value, hvalue, rfl⟩ (ih hothers hnames.2 hdepth.2)

/-- The documents that write the values of members restate the members. -/
theorem forall₂_memberRestates {members : List (String × Document)} {values : List (String × Value)}
    (hwrites : List.Forall₂ MemberWrites members values)
    (hnames : membersHaveDistinctNames (members.map fun member ↦ (some member.1, member.2)))
    (hdepth : depthOfMembers (members.map fun member ↦ (some member.1, member.2)) ≤ depth) :
    List.Forall₂ (MemberRestates depth) members
      (values.map fun entry ↦ (entry.1, ofValue entry.2)) := by
  induction hwrites with
  | nil => exact .nil
  | cons hmember _ ih =>
    rw [List.map_cons, membersHaveDistinctNames, Bool.and_eq_true] at hnames
    rw [List.map_cons, depthOfMembers, Nat.max_le] at hdepth
    have hrestates := Restates.mk hnames.1 hdepth.1 ⟨_, hmember.value_eq, rfl⟩
    exact .cons ⟨hmember.name_eq, hrestates⟩ (ih hnames.2 hdepth.2)

/-- The members of an object that writes a value all have names. -/
theorem object_ofMembers (members : List (String × Value)) :
    Document.object (ofMembers members) =
      ofNamed (members.map fun member ↦ (member.1, ofValue member.2)) := by
  rw [ofNamed, List.map_map, object.injEq]
  induction members with
  | nil => rfl
  | cons member rest ih => rw [ofMembers, ih, List.map_cons, Function.comp_apply]

/-- A document looks like one that restates it, and what is inside has one level less to nest in. -/
theorem Restates.sameShape {document other : Document} (h : Restates depth document other) :
    SameShape (depth - 1) document other := by
  obtain ⟨hnames, hdepth, value, hvalue, rfl⟩ := h
  match document with
  | .null =>
    cases hvalue
    exact .null
  | .bool value =>
    cases hvalue
    exact .bool value
  | .number content =>
    obtain ⟨content, rfl, rfl⟩ := Option.map_eq_some_iff.1 hvalue
    exact .number content
  | .string content =>
    obtain ⟨content, rfl, rfl⟩ := Option.map_eq_some_iff.1 hvalue
    exact .string content
  | .array items =>
    obtain ⟨values, hvalues, rfl⟩ := Option.map_eq_some_iff.1 hvalue
    exact .array (forall₂_restates_of_valuesOfItems? hvalues hnames (Nat.le_sub_of_add_le hdepth))
  | .object members =>
    obtain ⟨values, hvalues, rfl⟩ := Option.map_eq_some_iff.1 hvalue
    obtain ⟨hdistinct, hmembers⟩ := Bool.and_eq_true_iff.1 hnames
    obtain ⟨named, rfl, hwrites⟩ := exists_named_of_valuesOfMembers? hvalues
    have hnodup : (named.map (·.1)).Nodup := by
      refine List.Nodup.of_map some ?_
      simpa [Function.comp_def] using hdistinct
    -- No name of the members is lost when the value puts them in order.
    have hvaluesNodup : (values.map (·.1)).Nodup := names_eq_of_forall₂ hwrites ▸ hnodup
    have hsorted := names_nodup_of_ascending (ascending_sortEntries values)
    rw [Value.ofMembers, ofValue, object_ofMembers]
    refine .object hnodup ?_
      (forall₂_memberRestates hwrites hmembers (Nat.le_sub_of_add_le hdepth))
      ((sortEntries_perm hvaluesNodup).symm.map _)
    simpa [Function.comp_def] using hsorted

/-- A document and one that restates it have one value. -/
theorem Restates.toValue?_eq {document other : Document} (h : Restates depth document other) :
    document.toValue? (some depth) = other.toValue? none := by
  obtain ⟨-, hdepth, value, hvalue, rfl⟩ := h
  rw [toValue?_ofValue (isNormal_of_value? hvalue), toValue?, Option.all_some, hvalue,
    decide_eq_true hdepth, if_pos rfl]

/-- `first` reads a document as `second` reads one that restates it. -/
def ReadsAlike {α : Type} (depth : Nat) (first second : Document → Option α) : Prop :=
  ∀ ⦃document other : Document⦄, Restates depth document other → first document = second other

end Document

/-! ### Records -/

namespace Record

open Document

variable {depth : Nat}

theorem namedMembers?_map (members : List (String × Document)) :
    namedMembers? (members.map fun member ↦ (some member.1, member.2)) = some members := by
  induction members with
  | nil => rfl
  | cons member rest ih => rw [List.map_cons, namedMembers?, ih, Option.map_some]

/-- Members of distinct names write every field once at most. -/
theorem writesOnce_of_nodup {members : List (String × Document)} (fields : List String)
    (h : (members.map (·.1)).Nodup) : writesOnce fields members := by
  refine List.all_eq_true.2 fun field _ ↦ ?_
  exact decide_eq_true (List.nodup_iff_count_le_one.1 h field)

/-- An object without repeated names is read as a record. -/
theorem ofDocument?_ofNamed {members : List (String × Document)} (fields : List String)
    (h : (members.map (·.1)).Nodup) :
    ofDocument? fields (ofNamed members) = some ⟨members, false⟩ := by
  rw [ofNamed, ofDocument?, namedMembers?_map]
  exact if_pos (writesOnce_of_nodup fields h)

/-- `other` has the fields of `record`, each restated. -/
structure Restates (depth : Nat) (record other : Record Document) : Prop where
  positional_eq : record.positional = other.positional
  lookup : ∀ name, Option.Rel (Document.Restates depth) (record.members.lookup name)
    (other.members.lookup name)

/-- Restated members have restated values under the same names. -/
theorem lookup_restates {members others : List (String × Document)}
    (h : List.Forall₂ (MemberRestates depth) members others) (name : String) :
    Option.Rel (Document.Restates depth) (members.lookup name) (others.lookup name) := by
  induction h with
  | nil => exact .none
  | @cons member other _ _ hfirst _ ih =>
    rw [← Prod.eta member, ← Prod.eta other, lookup_entry_cons, lookup_entry_cons, hfirst.name_eq]
    split
    · exact .some hfirst.restates
    · exact ih

theorem forall₂_zip {items others : List Document} (fields : List String)
    (h : List.Forall₂ (Document.Restates depth) items others) :
    List.Forall₂ (MemberRestates depth) (fields.zip items) (fields.zip others) := by
  induction h generalizing fields with
  | nil => simp
  | cons hfirst _ ih =>
    cases fields with
    | nil => exact .nil
    | cons field fields => exact .cons ⟨rfl, hfirst⟩ (ih fields)

/-- An array and one that restates it are read as records of restated fields. -/
theorem ofItems?_restates {items others : List Document} (fields : List String)
    (h : List.Forall₂ (Document.Restates depth) items others) :
    Option.Rel (Restates depth) (ofItems? fields items) (ofItems? fields others) := by
  rw [ofItems?, ofItems?, h.length_eq]
  split
  · exact .some ⟨rfl, lookup_restates (forall₂_zip fields h)⟩
  · exact .none

/-- A document and one that restates it are read as records of restated fields. -/
theorem ofDocument?_restates {document other : Document} (fields : List String)
    (h : Document.Restates depth document other) :
    Option.Rel (Restates (depth - 1)) (ofDocument? fields document) (ofDocument? fields other) := by
  cases h.sameShape with
  | null | bool | number | string => exact .none
  | array hitems => exact ofItems?_restates fields hitems
  | object hnodup hothers hmembers hperm =>
    rw [ofDocument?_ofNamed fields hnodup, ofDocument?_ofNamed fields hothers]
    refine .some ⟨rfl, fun name ↦ ?_⟩
    rw [lookup_eq_of_perm hothers hperm.symm name]
    exact lookup_restates hmembers name

variable {α : Type} {record other : Record Document} {first second : Document → Option α}

theorem elim_eq_of_rel {ι κ : Type} {related : ι → κ → Prop} {first : ι → α} {second : κ → α}
    {item : Option ι} {other : Option κ} (h : Option.Rel related item other) (missing : α)
    (hread : ∀ ⦃item : ι⦄ ⦃other : κ⦄, related item other → first item = second other) :
    item.elim missing first = other.elim missing second := by
  cases h with
  | none => rfl
  | some hitem => exact hread hitem

/-- A required field is read alike from a record and one that restates it. -/
theorem Restates.required_eq (h : record.Restates depth other) (name : String)
    (hread : ReadsAlike depth first second) :
    record.required name first = other.required name second := by
  rw [required_eq_elim, required_eq_elim, elim_eq_of_rel (h.lookup name) none hread]

/-- A field that has a default is read alike from a record and one that restates it. -/
theorem Restates.defaulted_eq (h : record.Restates depth other) (name : String) (default : α)
    (hread : ReadsAlike depth first second) :
    record.defaulted name default first = other.defaulted name default second := by
  rw [defaulted_eq_elim, defaulted_eq_elim, elim_eq_of_rel (h.lookup name) (some default) hread]

end Record

end SchemaPlan.Json
