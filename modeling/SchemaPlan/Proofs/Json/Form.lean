import SchemaPlan.Json.Form
import SchemaPlan.Proofs.NameMap

/-!
# Forms that read back

A JSON form is lawful if reading undoes writing (`LawfulJsonForm`). The forms of the basic types are
lawful, and those of lists, maps and sets are where the forms of their entries are. An optional
value is told from an absent one by not being null, so its form is lawful where null is never
written for a value that is there (`NeverNull`).

A map is read alike from its members as they stand and from the last one of each name in order, if
only members of a name of their own cannot be read (`readMembers?_sortEntries`).
-/

set_option autoImplicit false
set_option relaxedAutoImplicit false

namespace SchemaPlan.Json

/-- Reading gives back what has been written. -/
class LawfulJsonForm (α : Type) [JsonForm α] : Prop where
  ofJson?_toJson : ∀ value : α, ofJson? (toJson value) = some value

export LawfulJsonForm (ofJson?_toJson)

attribute [simp] ofJson?_toJson

/-- No value is written as null. -/
class NeverNull (α : Type) [JsonForm α] : Prop where
  toJson_ne_null : ∀ value : α, toJson value ≠ .null

variable {α : Type} [JsonForm α]

/-! ### Basic types -/

instance : LawfulJsonForm Value := ⟨fun _ ↦ rfl⟩

instance : LawfulJsonForm Bool := ⟨fun _ ↦ rfl⟩

instance : LawfulJsonForm String := ⟨fun _ ↦ rfl⟩

instance : NeverNull String := ⟨fun _ h ↦ nomatch h⟩

@[simp] theorem ofJson?_value (value : Value) : ofJson? value = some value := rfl

@[simp] theorem ofJson?_string (text : String) : ofJson? (.string text) = some text := rfl

/-- An integer of a word is a number. -/
theorem Number.ofInt?_of_isWord {value : Int} (h : IsWord value) :
    Number.ofInt? value = some (.integer value h) := dif_pos h

-- An equation of functions: at an argument, unfolding would evaluate the comparisons with the
-- bounds of a word.
theorem Value.ofNat_eq : ofNat = fun n : Nat ↦ (Number.ofInt? n).elim .null .number := by
  delta ofNat
  funext n
  cases Number.ofInt? n <;> rfl

theorem isWord_toNat (value : UInt32) : IsWord value.toNat := by
  have hlt := value.toNat_lt
  rw [IsWord]
  omega

theorem toJson_uint32 (value : UInt32) :
    toJson value = .number (.integer value.toNat (isWord_toNat value)) := by
  change Value.ofNat value.toNat = _
  simp only [Value.ofNat_eq]
  rw [Number.ofInt?_of_isWord (isWord_toNat value), Option.elim_some]

instance : LawfulJsonForm UInt32 where
  ofJson?_toJson value := by
    have hrange : 0 ≤ (value.toNat : Int) ∧ (value.toNat : Int) < 0x100000000 := by
      have hlt := value.toNat_lt
      omega
    rw [toJson_uint32]
    simp only [ofJson?]
    rw [if_pos hrange, Int.toNat_natCast]
    simp

instance : NeverNull UInt32 where
  toJson_ne_null value h := by
    rw [toJson_uint32] at h
    cases h

/-! ### Lists and options -/

/-- Items that are written one after another are read back. -/
theorem readItems?_map {ι β : Type} {read? : β → Option ι} {write : ι → β} (items : List ι)
    (h : ∀ item ∈ items, read? (write item) = some item) :
    readItems? read? (items.map write) = some items := by
  induction items with
  | nil => rfl
  | cons item rest ih =>
    rw [List.map_cons, readItems?, h item List.mem_cons_self,
      ih fun other hother ↦ h other (List.mem_cons_of_mem item hother)]

instance [LawfulJsonForm α] : LawfulJsonForm (List α) where
  ofJson?_toJson items := by
    change readItems? ofJson? (items.map toJson) = some items
    exact readItems?_map items fun item _ ↦ ofJson?_toJson item

@[simp] theorem ofJson?_array (items : List Value) : ofJson? (.array items) = some items :=
  (congrArg (readItems? some) (List.map_id items).symm).trans
    (readItems?_map items fun _ _ ↦ rfl)

instance [LawfulJsonForm α] [NeverNull α] : LawfulJsonForm (Option α) where
  ofJson?_toJson
    | none => rfl
    | some value => by
      have hread : ofJson? (toJson value) = some value := ofJson?_toJson value
      change (match toJson value with
        | .null => some none
        | other => (ofJson? other).map some) = _
      split
      · next hnull => exact absurd hnull (NeverNull.toJson_ne_null value)
      · rw [hread, Option.map_some]

/-! ### Maps and sets -/

/-- Members that are written one after another are read back. -/
theorem readMembers?_map {ι β : Type} {read? : β → Option ι} {write : ι → β}
    (members : List (String × ι)) (h : ∀ member ∈ members, read? (write member.2) = some member.2) :
    readMembers? read? (members.map fun member ↦ (member.1, write member.2)) = some members := by
  induction members with
  | nil => rfl
  | cons member rest ih =>
    rw [List.map_cons, readMembers?, h member List.mem_cons_self,
      ih fun other hother ↦ h other (List.mem_cons_of_mem member hother)]

section

variable {ι β : Type} {read? : ι → Option β} {members : List (String × ι)}

/-- One member that cannot be read makes all unreadable. -/
theorem readMembers?_eq_none {member : String × ι} (hmem : member ∈ members)
    (hread : read? member.2 = none) : readMembers? read? members = none := by
  induction members with
  | nil => cases hmem
  | cons first rest ih =>
    rcases List.mem_cons.1 hmem with rfl | hmem
    · rw [readMembers?, hread]
    · rw [readMembers?, ih hmem]
      cases read? first.2 <;> rfl

/-- Where every member can be read, the last of each name is what is read. -/
theorem exists_readMembers? (h : ∀ member ∈ members, read? member.2 ≠ none) :
    ∃ entries, readMembers? read? members = some entries ∧
      ∀ name, entries.reverse.lookup name = (members.reverse.lookup name).bind read? := by
  induction members with
  | nil => exact ⟨[], rfl, fun _ ↦ rfl⟩
  | cons member rest ih =>
    have hrest : ∀ other ∈ rest, read? other.2 ≠ none := fun other hother ↦
      h other (List.mem_cons_of_mem member hother)
    obtain ⟨entries, hentries, hlookup⟩ := ih hrest
    obtain ⟨value, hvalue⟩ := Option.ne_none_iff_exists'.1 (h member List.mem_cons_self)
    refine ⟨(member.1, value) :: entries, by rw [readMembers?, hvalue, hentries], fun name ↦ ?_⟩
    rw [List.reverse_cons, List.reverse_cons, List.lookup_append, List.lookup_append, hlookup]
    -- A later member of the name counts before this one, whether as it is or as it is read.
    cases hlater : rest.reverse.lookup name with
    | none =>
      rw [← Prod.eta member, lookup_entry_cons, lookup_entry_cons]
      split <;> simp [hvalue]
    | some item =>
      have hitem := hrest (name, item) (List.mem_reverse.1 (mem_of_lookup hlater))
      obtain ⟨found, hfound⟩ := Option.ne_none_iff_exists'.1 hitem
      simp [hfound]

/-- Sorting the members first changes nothing if no name of an unreadable one repeats. -/
theorem readMembers?_sortEntries
    (h : ∀ member ∈ members, read? member.2 = none → (members.map (·.1)).count member.1 ≤ 1) :
    (readMembers? read? (sortEntries members)).map NameMap.ofList =
      (readMembers? read? members).map NameMap.ofList := by
  by_cases hall : ∀ member ∈ members, read? member.2 ≠ none
  · obtain ⟨entries, hentries, hlookup⟩ := exists_readMembers? hall
    obtain ⟨sorted, hsorted, hlookupSorted⟩ :=
      exists_readMembers? fun member hmember ↦ hall member (mem_sortEntries hmember)
    rw [hentries, hsorted, Option.map_some, Option.map_some]
    refine congrArg some (NameMap.ext_get? fun name ↦ ?_)
    rw [NameMap.get?_ofList, NameMap.get?_ofList, hlookup, hlookupSorted, ← lookup_sortEntries,
      sortEntries_of_ascending (ascending_sortEntries members), lookup_sortEntries]
  · obtain ⟨member, hmember, hread⟩ : ∃ member ∈ members, read? member.2 = none := by
      simpa using hall
    have hsorted := mem_sortEntries_of_count_le_one (h member hmember hread) hmember
    rw [readMembers?_eq_none hmember hread, readMembers?_eq_none hsorted hread]

end

instance [LawfulJsonForm α] : LawfulJsonForm (NameMap α) where
  ofJson?_toJson map := by
    change (readMembers? ofJson? (map.entries.map fun entry ↦ (entry.1, toJson entry.2))).map
      NameMap.ofList = some map
    rw [readMembers?_map map.entries fun entry _ ↦ ofJson?_toJson entry.2, Option.map_some,
      NameMap.ofList_entries]

instance : LawfulJsonForm NameSet where
  ofJson?_toJson set := by
    change (ofJson? (toJson set.names) : Option (List String)).map NameSet.ofList = some set
    rw [ofJson?_toJson, Option.map_some]
    exact congrArg some (NameSet.ext_names fun name ↦ NameSet.mem_names_ofList)

/-! ### Records -/

namespace Record

variable (members : List (String × Value)) (name : String) (positional : Bool)

@[simp] theorem ofValue?_ofMembers (fields : List String) :
    ofValue? fields (.ofMembers members) = some ⟨sortEntries members, false⟩ := rfl

omit [JsonForm α] in
/-- Of the members of one name, the last is read. -/
@[simp] theorem required_sortEntries (read? : Value → Option α) :
    (⟨sortEntries members, positional⟩ : Record Value).required name read? =
      (members.reverse.lookup name).bind read? := by
  rw [required_eq_elim, lookup_sortEntries]
  cases members.reverse.lookup name <;> rfl

@[simp] theorem field?_sortEntries :
    (⟨sortEntries members, positional⟩ : Record Value).field? name =
      (members.reverse.lookup name).bind (ofJson? : Value → Option α) :=
  required_sortEntries members name positional ofJson?

@[simp] theorem optionalField?_sortEntries :
    (⟨sortEntries members, false⟩ : Record Value).optionalField? name =
      (members.reverse.lookup name).elim (some none) (ofJson? : Value → Option (Option α)) := by
  rw [optionalField?, optional, lookup_sortEntries]
  cases members.reverse.lookup name <;> rfl

@[simp] theorem defaultedField?_sortEntries (default : α) :
    (⟨sortEntries members, positional⟩ : Record Value).defaultedField? name default =
      (members.reverse.lookup name).elim (some default) ofJson? := by
  rw [defaultedField?, defaulted_eq_elim, lookup_sortEntries]

end Record

/-! ### Alternatives -/

@[simp] theorem unitName?_string (name : String) : unitName? (.string name) = some name := rfl

@[simp] theorem taggedBeside?_ofMembers (tag content : String) (members : List (String × Value)) :
    taggedBeside? tag content (.ofMembers members) =
      (members.reverse.lookup tag).bind fun value ↦
        (unitName? value).map (·, members.reverse.lookup content) := by
  rw [Value.ofMembers, taggedBeside?, lookup_sortEntries, lookup_sortEntries]
  cases members.reverse.lookup tag <;> rfl

/-- A tag among the members is found with all of them. -/
theorem taggedWithin?_ofMembers {tag name : String} {members : List (String × Value)}
    (h : members.reverse.lookup tag = some (.string name)) :
    taggedWithin? tag (.ofMembers members) = some (name, .ofMembers members) := by
  rw [Value.ofMembers, taggedWithin?, lookup_sortEntries, h]

end SchemaPlan.Json
