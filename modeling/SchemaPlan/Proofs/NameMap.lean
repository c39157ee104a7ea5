import Mathlib.Data.List.Sort
import SchemaPlan.NameMap

/-!
# Looking names up in maps and sets

A map made from a list gives the last value that the list has under a name (`get?_ofList`), and a
map over names gives the value of every one of them (`get?_tabulate`). A set made from a list holds
the names of the list (`NameSet.mem_names_ofList`). Maps in which every look-up gives the same are
equal (`NameMap.ext_get?`), and so are sets of the same names (`NameSet.ext_names`). The union of
two maps gives what either gives, the first one where both do (`get?_union`). Sorting entries of
distinct names does no more than reorder them (`sortEntries_perm`).
-/

set_option autoImplicit false
set_option relaxedAutoImplicit false

namespace SchemaPlan

variable {α : Type}

/-! ### Look-ups in lists of entries -/

/-- Of the entries of one name, sorting keeps the last. -/
theorem lookup_sortEntries (entries : List (String × α)) (name : String) :
    (sortEntries entries).lookup name = entries.reverse.lookup name := by
  suffices h : ∀ sorted : List (String × α),
      (entries.foldl (fun sorted entry ↦ insertEntry entry.1 entry.2 sorted) sorted).lookup name =
        (entries.reverse.lookup name).or (sorted.lookup name) by
    simpa [sortEntries] using h []
  induction entries with
  | nil => simp
  | cons entry rest ih =>
    intro sorted
    rw [List.foldl_cons, ih, lookup_insertEntry, List.reverse_cons, List.lookup_append,
      Option.or_assoc]
    congr 1
    rw [lookup_entry_cons]
    split <;> simp

theorem lookup_map_pair (names : List String) (value : String → α) (name : String) :
    (names.map fun name ↦ (name, value name)).lookup name =
      if name ∈ names then some (value name) else none := by
  induction names with
  | nil => simp
  | cons first rest ih =>
    rw [List.map_cons, lookup_entry_cons, ih]
    by_cases hname : name = first
    · simp [hname]
    · simp [hname]

/-- Looking up among entries made of items finds the first item of the name. -/
theorem lookup_map_entry {ι : Type} (items : List ι) (nameOf : ι → String) (value : ι → α)
    (name : String) : (items.map fun item ↦ (nameOf item, value item)).lookup name =
      (items.find? (nameOf · == name)).map value := by
  induction items with
  | nil => rfl
  | cons first rest ih =>
    rw [List.map_cons, lookup_entry_cons, List.find?_cons, ih]
    by_cases hname : name = nameOf first
    · simp [hname]
    · rw [if_neg hname, beq_eq_false_iff_ne.2 (Ne.symm hname)]

/-! ### Entries of distinct names -/

/-- Names that ascend do not repeat. -/
theorem names_nodup_of_ascending {entries : List (String × α)} (h : Ascending entries) :
    (entries.map (·.1)).Nodup := by
  refine List.Pairwise.imp ?_ (List.pairwise_map.2 h)
  exact fun hlt heq ↦ String.lt_irrefl _ (heq ▸ hlt)

theorem mem_of_lookup {entries : List (String × α)} {name : String} {value : α}
    (h : entries.lookup name = some value) : (name, value) ∈ entries := by
  obtain ⟨before, after, rfl, -⟩ := List.lookup_eq_some_iff.1 h
  exact List.mem_append_right before List.mem_cons_self

/-- Where names do not repeat, the entries are what is looked up. -/
theorem mem_iff_lookup_of_nodup {entries : List (String × α)} {entry : String × α}
    (h : (entries.map (·.1)).Nodup) : entry ∈ entries ↔ entries.lookup entry.1 = some entry.2 := by
  refine ⟨fun hmem ↦ ?_, mem_of_lookup⟩
  induction entries with
  | nil => cases hmem
  | cons first rest ih =>
    obtain ⟨hfirst, hrest⟩ := List.nodup_cons.1 h
    rw [lookup_entry_cons]
    rcases List.mem_cons.1 hmem with rfl | hmem
    · exact if_pos rfl
    · have hname : entry.1 ≠ first.1 := fun heq ↦
        hfirst (List.mem_map.2 ⟨entry, hmem, heq⟩)
      rw [if_neg hname, ih hrest hmem]

/-- Where names do not repeat, the order of the entries does not matter to looking up. -/
theorem lookup_eq_of_perm {entries others : List (String × α)}
    (hnodup : (entries.map (·.1)).Nodup) (hperm : entries.Perm others) (name : String) :
    entries.lookup name = others.lookup name := by
  have hothers : (others.map (·.1)).Nodup := (hperm.map _).nodup_iff.1 hnodup
  ext value
  rw [← @mem_iff_lookup_of_nodup _ _ (name, value) hnodup, hperm.mem_iff,
    mem_iff_lookup_of_nodup hothers]

theorem mem_sortEntries {entries : List (String × α)} {entry : String × α}
    (h : entry ∈ sortEntries entries) : entry ∈ entries := by
  have hnodup := names_nodup_of_ascending (ascending_sortEntries entries)
  have hlookup := (mem_iff_lookup_of_nodup hnodup).1 h
  rw [lookup_sortEntries] at hlookup
  exact List.mem_reverse.1 (mem_of_lookup hlookup)

/-- Where names do not repeat, sorting puts the entries in another order and drops none. -/
theorem sortEntries_perm {entries : List (String × α)}
    (h : (entries.map (·.1)).Nodup) : (sortEntries entries).Perm entries := by
  have hsorted := names_nodup_of_ascending (ascending_sortEntries entries)
  refine (List.perm_ext_iff_of_nodup hsorted.of_map h.of_map).2 fun entry ↦ ?_
  rw [mem_iff_lookup_of_nodup hsorted, mem_iff_lookup_of_nodup h, lookup_sortEntries,
    lookup_eq_of_perm h (List.reverse_perm entries).symm]

/-! ### Entries whose names may repeat -/

/-- The name of an entry is found, with the value of the last entry of that name. -/
theorem exists_lookup_reverse_of_mem {entries : List (String × α)} {entry : String × α}
    (h : entry ∈ entries) :
    ∃ value, entries.reverse.lookup entry.1 = some value ∧ (entry.1, value) ∈ entries := by
  have hsome : (entries.reverse.lookup entry.1).isSome :=
    List.lookup_isSome_iff.2 ⟨entry, List.mem_reverse.2 h, beq_self_eq_true _⟩
  obtain ⟨value, hvalue⟩ := Option.isSome_iff_exists.1 hsome
  exact ⟨value, hvalue, List.mem_reverse.1 (mem_of_lookup hvalue)⟩

theorem eq_of_count_le_one {entries : List (String × α)} {name : String}
    {value other : α} (hcount : (entries.map (·.1)).count name ≤ 1)
    (hvalue : (name, value) ∈ entries) (hother : (name, other) ∈ entries) : value = other := by
  obtain ⟨before, after, rfl⟩ := List.append_of_mem hvalue
  rw [List.map_append, List.map_cons, List.count_append, List.count_cons_self] at hcount
  have hrest {part : List (String × α)} (hpart : (part.map (·.1)).count name = 0) :
      (name, other) ∉ part := fun hmem ↦
    List.count_eq_zero.1 hpart (List.mem_map.2 ⟨(name, other), hmem, rfl⟩)
  rcases List.mem_append.1 hother with hmem | hmem
  · exact absurd hmem (hrest (by omega))
  · rcases List.mem_cons.1 hmem with heq | hmem
    · cases heq
      rfl
    · exact absurd hmem (hrest (by omega))

/-- Sorting keeps an entry whose name does not repeat. -/
theorem mem_sortEntries_of_count_le_one {entries : List (String × α)}
    {entry : String × α} (hcount : (entries.map (·.1)).count entry.1 ≤ 1) (h : entry ∈ entries) :
    entry ∈ sortEntries entries := by
  obtain ⟨value, hvalue, hmem⟩ := exists_lookup_reverse_of_mem h
  refine mem_of_lookup ?_
  rw [lookup_sortEntries, hvalue, eq_of_count_le_one hcount hmem h]

/-- Entries with ascending names are determined by which entries there are. -/
theorem eq_of_ascending {first second : List (String × α)} (hfirst : Ascending first)
    (hsecond : Ascending second) (hmem : ∀ entry, entry ∈ first ↔ entry ∈ second) :
    first = second := by
  have hirrefl : Std.Irrefl fun entry other : String × α ↦ entry.1 < other.1 :=
    ⟨fun entry ↦ String.lt_irrefl entry.1⟩
  have hantisymm : Std.Antisymm fun entry other : String × α ↦ entry.1 < other.1 :=
    ⟨fun entry _ hlt hgt ↦ absurd (String.lt_trans hlt hgt) (String.lt_irrefl entry.1)⟩
  exact List.Pairwise.eq_of_mem_iff hfirst hsecond hmem

/-! ### Maps and sets -/

namespace NameMap

/-- A map made of entries holds the last value of each name. -/
theorem get?_ofList (entries : List (String × α)) (name : String) :
    (ofList entries).get? name = entries.reverse.lookup name :=
  lookup_sortEntries entries name

/-- A map made by a function holds its value at every name of the list. -/
theorem get?_tabulate (names : List String) (value : String → α) (name : String) :
    (tabulate names value).get? name = if name ∈ names then some (value name) else none := by
  rw [tabulate, get?_ofList, ← List.map_reverse, lookup_map_pair]
  simp

/-- The keys of a map are the names it holds something under. -/
theorem mem_keys {map : NameMap α} {name : String} : name ∈ map.keys ↔ (map.get? name).isSome := by
  simp only [keys, get?, List.lookup_isSome_iff, List.mem_map, beq_iff_eq]
  exact exists_congr fun entry ↦ and_congr_right fun _ ↦ eq_comm

theorem keys_nodup (map : NameMap α) : map.keys.Nodup :=
  names_nodup_of_ascending map.ascending

/-- The entries of a map are what it holds. -/
theorem mem_entries_iff {map : NameMap α} {entry : String × α} :
    entry ∈ map.entries ↔ map.get? entry.1 = some entry.2 :=
  mem_iff_lookup_of_nodup map.keys_nodup

theorem get?_of_mem_entries {map : NameMap α} {entry : String × α} (h : entry ∈ map.entries) :
    map.get? entry.1 = some entry.2 := mem_entries_iff.1 h

/-- Maps that hold the same are equal. -/
theorem ext_get? {first second : NameMap α} (h : ∀ name, first.get? name = second.get? name) :
    first = second := by
  have hmem (entry : String × α) : entry ∈ first.entries ↔ entry ∈ second.entries := by
    rw [mem_entries_iff, mem_entries_iff, h]
  have hentries := eq_of_ascending first.ascending second.ascending hmem
  cases first
  cases second
  rwa [mk.injEq]

/-- The maps have the same value under every name that is in both. -/
def AgreesWith (first second : NameMap α) : Prop :=
  ∀ name value other, first.get? name = some value → second.get? name = some other → value = other

/-- The entries of both maps, those of the first where both have one. -/
def union (first second : NameMap α) : NameMap α := ofList (second.entries ++ first.entries)

/-- The union of two maps holds what either does, and what the first does where both do. -/
theorem get?_union (first second : NameMap α) (name : String) :
    (first.union second).get? name = (first.get? name).or (second.get? name) := by
  have hreverse (map : NameMap α) : map.entries.reverse.lookup name = map.get? name := by
    rw [← get?_ofList, ofList_entries]
  rw [union, get?_ofList, List.reverse_append, List.lookup_append, hreverse, hreverse]

end NameMap

namespace NameSet

/-- A set made of names has those names. -/
theorem mem_names_ofList {names : List String} {name : String} :
    name ∈ (ofList names).names ↔ name ∈ names := by
  rw [ofList, NameMap.mem_keys, NameMap.get?_tabulate]
  split <;> simp_all

/-- Sets of the same names are equal. -/
theorem ext_names {first second : NameSet} (h : ∀ name, name ∈ first.names ↔ name ∈ second.names) :
    first = second := by
  have hnames := List.Pairwise.eq_of_mem_iff first.ascending second.ascending h
  cases first
  cases second
  rwa [mk.injEq]

/-- The order of names does not matter to the set of them. -/
theorem ofList_eq_of_perm {names others : List String} (h : names.Perm others) :
    ofList names = ofList others := by
  refine ext_names fun name ↦ ?_
  rw [mem_names_ofList, mem_names_ofList, h.mem_iff]

end NameSet

end SchemaPlan
