/-!
# Maps and sets of names

Names in ascending order of their code points, each once. `NameMap` keeps a value beside each name
and `NameSet` the names alone; both have one representation per content, so equal look-ups make
equal maps.
-/

set_option autoImplicit false
set_option relaxedAutoImplicit false

namespace SchemaPlan

/-! ### Sorted entries -/

/-- Puts an entry in its place, in the place of an older one of the same name. -/
def insertEntry {α : Type} (name : String) (value : α) :
    List (String × α) → List (String × α)
  | [] => [(name, value)]
  | (key, old) :: rest =>
    if name < key then (name, value) :: (key, old) :: rest
    else if name = key then (name, value) :: rest
    else (key, old) :: insertEntry name value rest

/-- The entries in order of their names, the last one of each name. -/
def sortEntries {α : Type} (entries : List (String × α)) : List (String × α) :=
  entries.foldl (fun sorted entry ↦ insertEntry entry.1 entry.2 sorted) []

/-- Names strictly ascend. -/
def Ascending {α : Type} (entries : List (String × α)) : Prop :=
  entries.Pairwise fun first second ↦ first.1 < second.1

theorem lt_of_not_lt_of_ne {first second : String} (hlt : ¬first < second) (hne : first ≠ second) :
    second < first :=
  Classical.byContradiction fun h ↦
    hne (String.le_antisymm (String.not_lt.1 h) (String.not_lt.1 hlt))

theorem mem_insertEntry {α : Type} {name : String} {value : α} {entry : String × α}
    {entries : List (String × α)} (h : entry ∈ insertEntry name value entries) :
    entry = (name, value) ∨ entry ∈ entries := by
  induction entries with
  | nil => simp_all [insertEntry]
  | cons first rest ih =>
    obtain ⟨key, old⟩ := first
    rw [insertEntry] at h
    split at h
    · simpa using h
    · split at h <;> grind

/-- An entry that is inserted keeps the names ascending. -/
theorem ascending_insertEntry {α : Type} (name : String) (value : α) {entries : List (String × α)}
    (h : Ascending entries) : Ascending (insertEntry name value entries) := by
  induction entries with
  | nil => simp [insertEntry, Ascending]
  | cons first rest ih =>
    obtain ⟨key, old⟩ := first
    obtain ⟨hfirst, hrest⟩ := List.pairwise_cons.1 h
    rw [insertEntry]
    split
    · next hlt =>
      refine List.pairwise_cons.2 ⟨fun entry hentry ↦ ?_, h⟩
      rcases List.mem_cons.1 hentry with rfl | hentry
      · exact hlt
      · exact String.lt_trans hlt (hfirst entry hentry)
    · split
      · next heq => exact List.pairwise_cons.2 ⟨fun entry hentry ↦ heq ▸ hfirst entry hentry, hrest⟩
      · next hlt hne =>
        refine List.pairwise_cons.2 ⟨fun entry hentry ↦ ?_, ih hrest⟩
        rcases mem_insertEntry hentry with rfl | hentry
        · exact lt_of_not_lt_of_ne hlt hne
        · exact hfirst entry hentry

/-- The names of sorted entries ascend. -/
theorem ascending_sortEntries {α : Type} (entries : List (String × α)) :
    Ascending (sortEntries entries) := by
  suffices h : ∀ sorted : List (String × α), Ascending sorted → Ascending
      (entries.foldl (fun sorted entry ↦ insertEntry entry.1 entry.2 sorted) sorted) from
    h [] List.Pairwise.nil
  induction entries with
  | nil => exact fun sorted hsorted ↦ hsorted
  | cons entry rest ih => exact fun sorted hsorted ↦ ih _ (ascending_insertEntry _ _ hsorted)

theorem lookup_entry_cons {α : Type} (name key : String) (value : α) (rest : List (String × α)) :
    ((key, value) :: rest).lookup name = if name = key then some value else rest.lookup name := by
  rw [List.lookup_cons]
  by_cases h : name = key
  · simp [h]
  · simp [h, beq_eq_false_iff_ne.2 h]

/-- Inserting an entry changes what is looked up by its name, and nothing else. -/
theorem lookup_insertEntry {α : Type} (name other : String) (value : α)
    (entries : List (String × α)) :
    (insertEntry name value entries).lookup other =
      if other = name then some value else entries.lookup other := by
  induction entries with
  | nil => rw [insertEntry, lookup_entry_cons]
  | cons first rest ih =>
    obtain ⟨key, old⟩ := first
    rw [insertEntry]
    split
    · rw [lookup_entry_cons]
    · split <;> simp only [lookup_entry_cons, ih] <;> grind

/-- An entry whose name is behind all others is put at the end. -/
theorem insertEntry_of_forall_lt {α : Type} {name : String} {value : α}
    {entries : List (String × α)} (h : ∀ entry ∈ entries, entry.1 < name) :
    insertEntry name value entries = entries ++ [(name, value)] := by
  induction entries with
  | nil => rfl
  | cons first rest ih =>
    obtain ⟨key, old⟩ := first
    have hkey : key < name := h (key, old) List.mem_cons_self
    have hlt : ¬name < key := fun hlt ↦ String.lt_irrefl key (String.lt_trans hkey hlt)
    have hne : name ≠ key := fun heq ↦ String.lt_irrefl key (heq ▸ hkey)
    rw [insertEntry, if_neg hlt, if_neg hne,
      ih fun entry hentry ↦ h entry (List.mem_cons_of_mem (key, old) hentry), List.cons_append]

/-- Sorting leaves entries whose names ascend as they are. -/
theorem sortEntries_of_ascending {α : Type} {entries : List (String × α)}
    (h : Ascending entries) : sortEntries entries = entries := by
  suffices hfold : ∀ sorted : List (String × α), Ascending (sorted ++ entries) →
      entries.foldl (fun sorted entry ↦ insertEntry entry.1 entry.2 sorted) sorted =
        sorted ++ entries by simpa [sortEntries] using hfold [] (by simpa using h)
  induction entries with
  | nil => simp
  | cons entry rest ih =>
    intro sorted hsorted
    have hlt : ∀ other ∈ sorted, other.1 < entry.1 := fun other hother ↦
      (List.pairwise_append.1 hsorted).2.2 other hother entry List.mem_cons_self
    rw [List.foldl_cons, insertEntry_of_forall_lt hlt, ih (List.pairwise_cons.1 h).2 _ (by simpa)]
    simp

/-! ### Maps -/

/-- Values under names, in ascending order of the names. -/
structure NameMap (α : Type) where
  entries : List (String × α)
  ascending : Ascending entries

namespace NameMap

variable {α : Type}

/-- No entries. -/
def empty : NameMap α := ⟨[], List.Pairwise.nil⟩

instance : Inhabited (NameMap α) := ⟨empty⟩

instance [DecidableEq α] : DecidableEq (NameMap α) := fun first second ↦
  decidable_of_iff (first.entries = second.entries)
    ⟨fun h ↦ by cases first; cases second; simp_all, fun h ↦ h ▸ rfl⟩

/-- Enters a value under a name, in the place of an older one. -/
def insert (map : NameMap α) (name : String) (value : α) : NameMap α :=
  ⟨insertEntry name value map.entries, ascending_insertEntry name value map.ascending⟩

/-- The map of the entries, the last one of each name. -/
def ofList (entries : List (String × α)) : NameMap α :=
  ⟨sortEntries entries, ascending_sortEntries entries⟩

/-- The map of `value` over the names. -/
def tabulate (names : List String) (value : String → α) : NameMap α :=
  ofList (names.map fun name ↦ (name, value name))

/-- The value under a name. -/
def get? (map : NameMap α) (name : String) : Option α := map.entries.lookup name

/-- The names in ascending order. -/
def keys (map : NameMap α) : List String := map.entries.map (·.1)

/-- The values in the order of their names. -/
def values (map : NameMap α) : List α := map.entries.map (·.2)

/-- The number of entries. -/
def size (map : NameMap α) : Nat := map.entries.length

/-- A map is made of its own entries. -/
theorem ofList_entries (map : NameMap α) : ofList map.entries = map := by
  simp [ofList, sortEntries_of_ascending map.ascending]

/-- Inserting a value changes what the map holds under its name, and nothing else. -/
theorem get?_insert (map : NameMap α) (name other : String) (value : α) :
    (map.insert name value).get? other = if other = name then some value else map.get? other :=
  lookup_insertEntry name other value map.entries

end NameMap

/-! ### Sets -/

/-- Names, in ascending order. -/
structure NameSet where
  names : List String
  ascending : names.Pairwise (· < ·)
deriving DecidableEq

namespace NameSet

/-- The set of the names. -/
def ofList (names : List String) : NameSet :=
  let map := NameMap.tabulate names fun _ ↦ ()
  ⟨map.keys, List.pairwise_map.2 map.ascending⟩

instance : Inhabited NameSet := ⟨ofList []⟩

/-- Whether the name is in the set. -/
def contains (set : NameSet) (name : String) : Bool := set.names.contains name

end NameSet

end SchemaPlan
