import SchemaPlan.Proofs.Config.Influence
import SchemaPlan.Trace

/-!
# Keys that are noted as ignored

After a configuration is read, the keys of models that were left out are noted. A key has at most
one aspect (`filterMap_ignored?`), so it is noted at most once, for the first model of the schema
that has it for an override key and is not listed (`unlistedOwner?`), and the notes come in the
order of the keys (`notesKeys_ignoredKeys`). Names that differ in case share their override keys. A
key that is read for a listed model is therefore noted when the schema spells an unlisted model
alike; the notes are those of the keys that nothing reads exactly when the settings have no such key
(`NotesKeys.ownerOfUnread?_iff`).
-/

set_option autoImplicit false
set_option relaxedAutoImplicit false

namespace SchemaPlan

/-! ### Owners of a key -/

/-- The first model that has the key for an override key and is not configured. -/
def unlistedOwner? (configured schemaNames : List String) (key : String) : Option String :=
  schemaNames.find? fun name ↦ key ∈ overrideKeys name ∧ name ∉ configured

/-- The key is an override key of a configured model, which is to say that it is read. -/
def IsRead (configured : List String) (key : String) : Prop :=
  ∃ model ∈ configured, key ∈ overrideKeys model

instance (configured : List String) (key : String) : Decidable (IsRead configured key) :=
  inferInstanceAs (Decidable (∃ model ∈ configured, key ∈ overrideKeys model))

/-- The first model that has the key for an override key, unless the key is read. -/
def ownerOfUnread? (configured schemaNames : List String) (key : String) : Option String :=
  if IsRead configured key then none else schemaNames.find? fun name ↦ key ∈ overrideKeys name

/-- The key is read for a configured model and is also an override key of a model that is not. -/
def IsShared (configured schemaNames : List String) (key : String) : Prop :=
  IsRead configured key ∧ ∃ name ∈ schemaNames, key ∈ overrideKeys name ∧ name ∉ configured

instance (configured schemaNames : List String) (key : String) :
    Decidable (IsShared configured schemaNames key) :=
  inferInstanceAs (Decidable (_ ∧ ∃ name ∈ schemaNames, _))

variable {configured schemaNames : List String} {key : String}

/-- The two ways to find the owner of a key differ on the keys that a configured model shares with
another. -/
theorem unlistedOwner?_eq_ownerOfUnread?_iff :
    unlistedOwner? configured schemaNames key = ownerOfUnread? configured schemaNames key ↔
      ¬ IsShared configured schemaNames key := by
  by_cases hread : IsRead configured key
  · rw [ownerOfUnread?, if_pos hread, unlistedOwner?, List.find?_eq_none, IsShared]
    simp [hread]
  · have hunlisted : ∀ name, key ∈ overrideKeys name → name ∉ configured :=
      fun name hkey hname ↦ hread ⟨name, hname, hkey⟩
    have howner : (fun name ↦ decide (key ∈ overrideKeys name ∧ name ∉ configured)) =
        fun name ↦ decide (key ∈ overrideKeys name) := by
      funext name
      exact decide_eq_decide.2 (and_iff_left_of_imp (hunlisted name))
    rw [ownerOfUnread?, if_neg hread, unlistedOwner?, howner]
    exact iff_of_true rfl fun hshared ↦ hread hshared.1

/-! ### One note for a key -/

/-- A model has a key for an override key when the stem of the key is its name in lower case. -/
theorem append_suffix_mem_overrideKeys_iff {stem name : String} {aspect : Aspect} :
    stem ++ aspect.suffix ∈ overrideKeys name ↔ Text.lowercase name = stem := by
  constructor
  · intro h
    obtain ⟨other, -, hkey⟩ := List.mem_map.1 h
    exact (append_suffix_inj hkey).1
  · rintro rfl
    exact aspect.key_mem_overrideKeys name

/-- A key with the suffix of an aspect is noted for that aspect when it has an unlisted owner. -/
theorem Aspect.ignored?_append_suffix (stem : String) (aspect : Aspect) :
    aspect.ignored? configured schemaNames (stem ++ aspect.suffix) =
      (unlistedOwner? configured schemaNames (stem ++ aspect.suffix)).map
        (⟨stem ++ aspect.suffix, ·⟩) := by
  rw [ignored?, Text.stem?_eq_some_iff.2 rfl, unlistedOwner?]
  simp only [append_suffix_mem_overrideKeys_iff, Bool.decide_and, decide_not,
    List.contains_eq_mem, beq_eq_decide]

/-- A key with the suffix of an aspect is not noted for any other aspect. -/
theorem Aspect.ignored?_append_suffix_of_ne {stem : String} {aspect other : Aspect}
    (h : other ≠ aspect) :
    other.ignored? configured schemaNames (stem ++ aspect.suffix) = none := by
  have hstem : Text.stem? other.suffix (stem ++ aspect.suffix) = none := by
    rw [Option.eq_none_iff_forall_not_mem]
    intro text htext
    exact h (append_suffix_inj (Text.stem?_eq_some_iff.1 htext)).2.symm
  rw [ignored?, hstem]

/-- If only one of the aspects finds something, that is all that is found. -/
theorem Aspect.filterMap_all {α : Type} {found? : Aspect → Option α} (aspect : Aspect)
    (h : ∀ other, other ≠ aspect → found? other = none) :
    all.filterMap found? = (found? aspect).toList := by
  have hfound (other : Aspect) : found? other = if other = aspect then found? aspect else none := by
    split
    · next heq => rw [heq]
    · next hne => exact h other hne
  rw [funext hfound]
  generalize found? aspect = result
  cases aspect <;> cases result <;> rfl

/-- What the aspects note about a key is one note at most, about its first unlisted owner. -/
theorem filterMap_ignored? (configured schemaNames : List String) (key : String) :
    Aspect.all.filterMap (·.ignored? configured schemaNames key) =
      ((unlistedOwner? configured schemaNames key).map (IgnoredKey.mk key)).toList := by
  by_cases hkey : ∃ (stem : String) (aspect : Aspect), key = stem ++ aspect.suffix
  · obtain ⟨stem, aspect, rfl⟩ := hkey
    rw [Aspect.filterMap_all aspect fun other ↦ Aspect.ignored?_append_suffix_of_ne,
      Aspect.ignored?_append_suffix]
  · have hstem (aspect : Aspect) : Text.stem? aspect.suffix key = none := by
      rw [Option.eq_none_iff_forall_not_mem]
      exact fun stem hstem ↦ hkey ⟨stem, aspect, Text.stem?_eq_some_iff.1 hstem⟩
    have howner : unlistedOwner? configured schemaNames key = none := by
      rw [unlistedOwner?, List.find?_eq_none]
      intro name _ howned
      obtain ⟨aspect, -, haspect⟩ := List.mem_map.1 (of_decide_eq_true howned).1
      exact hkey ⟨_, aspect, haspect.symm⟩
    simp [Aspect.ignored?, hstem, howner]

/-! ### All notes -/

/-- The notes are those of the keys that are set and have an owner, in ascending order and each with
its owner. -/
structure NotesKeys (settings : Settings) (owner? : String → Option String)
    (notes : List IgnoredKey) : Prop where
  ascending : notes.Pairwise (·.key < ·.key)
  mem_iff : ∀ note, note ∈ notes ↔ note.key ∈ settings.keys ∧ owner? note.key = some note.model

variable {settings : Settings} {owner? other? : String → Option String} {notes : List IgnoredKey}

/-- Going through the keys in order, and noting those that have an owner, gives the notes. -/
theorem notesKeys_filterMap (settings : Settings) (owner? : String → Option String) :
    NotesKeys settings owner? (settings.keys.filterMap fun key ↦
      (owner? key).map (IgnoredKey.mk key)) where
  ascending := by
    have hkeys : settings.keys.Pairwise (· < ·) := List.pairwise_map.2 settings.ascending
    refine List.Pairwise.filterMap _ ?_ hkeys
    intro key other hlt note hnote otherNote hother
    obtain ⟨_, -, rfl⟩ := Option.map_eq_some_iff.1 hnote
    obtain ⟨_, -, rfl⟩ := Option.map_eq_some_iff.1 hother
    exact hlt
  mem_iff note := by
    rw [List.mem_filterMap]
    constructor
    · rintro ⟨key, hkey, hnote⟩
      obtain ⟨model, hmodel, rfl⟩ := Option.map_eq_some_iff.1 hnote
      exact ⟨hkey, hmodel⟩
    · rintro ⟨hkey, hmodel⟩
      exact ⟨note.key, hkey, Option.map_eq_some_iff.2 ⟨note.model, hmodel, rfl⟩⟩

/-- The notes are also those of other owners exactly when every key that is set has the same
owner. -/
theorem NotesKeys.iff_forall_eq (h : NotesKeys settings owner? notes) :
    NotesKeys settings other? notes ↔ ∀ key ∈ settings.keys, owner? key = other? key := by
  constructor
  · intro hother key hkey
    ext model
    have hmem := (h.mem_iff ⟨key, model⟩).symm.trans (hother.mem_iff ⟨key, model⟩)
    exact ⟨fun howner ↦ (hmem.1 ⟨hkey, howner⟩).2, fun howner ↦ (hmem.2 ⟨hkey, howner⟩).2⟩
  · intro howner
    refine ⟨h.ascending, fun note ↦ (h.mem_iff note).trans (and_congr_right fun hkey ↦ ?_)⟩
    rw [howner note.key hkey]

/-- The ignored keys are those with an unlisted owner. -/
theorem notesKeys_ignoredKeys (settings : Settings) (configured schemaNames : List String) :
    NotesKeys settings (unlistedOwner? configured schemaNames)
      (ignoredKeys settings configured schemaNames) := by
  simp only [ignoredKeys, filterMap_ignored?, ← List.filterMap_eq_flatMap_toList]
  exact notesKeys_filterMap settings _

/-- The notes are about the keys that nothing reads exactly when no key is read for one model and
left out for another. -/
theorem NotesKeys.ownerOfUnread?_iff
    (h : NotesKeys settings (unlistedOwner? configured schemaNames) notes) :
    NotesKeys settings (ownerOfUnread? configured schemaNames) notes ↔
      ∀ key ∈ settings.keys, ¬ IsShared configured schemaNames key := by
  rw [h.iff_forall_eq]
  exact forall₂_congr fun key _ ↦ unlistedOwner?_eq_ownerOfUnread?_iff

/-- What is noted about the keys once a configuration has been read. -/
theorem Config.readNotices_notesKeys (schemaNames : List String) {schemaPath : String}
    {config : Config} (h : Config.ofSettings settings schemaPath = .ok config) :
    ∃ notes : List IgnoredKey,
      Config.readNotices settings schemaNames schemaPath = notes.map .keyIgnored ∧
      NotesKeys settings (unlistedOwner? config.models schemaNames) notes ∧
      (∀ key, ¬ IsShared config.models schemaNames key →
        unlistedOwner? config.models schemaNames key =
          ownerOfUnread? config.models schemaNames key) ∧
      (NotesKeys settings (ownerOfUnread? config.models schemaNames) notes ↔
        ∀ key ∈ settings.keys, ¬ IsShared config.models schemaNames key) := by
  have hnotes := notesKeys_ignoredKeys settings config.models schemaNames
  refine ⟨_, ?_, hnotes, fun key ↦ unlistedOwner?_eq_ownerOfUnread?_iff.2,
    hnotes.ownerOfUnread?_iff⟩
  rw [readNotices, h]

/-- Settings for notes, with fields set for drafts too. -/
def noteSettings : Settings := .ofList [
  ("output", .text "generated"),
  ("models", .list ["Note"]),
  ("noteSelect", .list ["title"]),
  ("draftSelect", .list ["title"])]

/-- The configuration that they describe. -/
def noteConfig : Config where
  output := "generated"
  importPath := defaultImport
  models := ["Note"]
  overrides := .ofList [("Note", { select := some (.fields ["title"]) })]

/-- The fields set for drafts are noted, since no configured model shares their key. -/
theorem Config.readNotices_notesKeys_drafts :
    Config.ofSettings noteSettings "schema.prisma" = .ok noteConfig ∧
    ∃ notes : List IgnoredKey,
      Config.readNotices noteSettings ["Note", "Draft"] "schema.prisma" = notes.map .keyIgnored ∧
      NotesKeys noteSettings (ownerOfUnread? noteConfig.models ["Note", "Draft"]) notes := by
  have hconfig : Config.ofSettings noteSettings "schema.prisma" = .ok noteConfig := rfl
  obtain ⟨notes, hnotices, -, -, hiff⟩ := Config.readNotices_notesKeys ["Note", "Draft"] hconfig
  exact ⟨hconfig, notes, hnotices, hiff.2 (by decide)⟩

/-- With a second spelling in the schema, the fields that are set for notes and read for them are
noted as ignored. -/
theorem Config.not_readNotices_ownerOfUnread :
    Config.ofSettings noteSettings "schema.prisma" = .ok noteConfig ∧
    IsRead noteConfig.models "noteSelect" ∧
    Notice.keyIgnored ⟨"noteSelect", "NOTE"⟩ ∈
      Config.readNotices noteSettings ["Note", "NOTE"] "schema.prisma" ∧
    ¬ ∃ notes : List IgnoredKey,
      Config.readNotices noteSettings ["Note", "NOTE"] "schema.prisma" = notes.map .keyIgnored ∧
      NotesKeys noteSettings (ownerOfUnread? noteConfig.models ["Note", "NOTE"]) notes := by
  have hnoted : Notice.keyIgnored ⟨"noteSelect", "NOTE"⟩ ∈
      Config.readNotices noteSettings ["Note", "NOTE"] "schema.prisma" := by decide
  refine ⟨rfl, by decide, hnoted, ?_⟩
  rintro ⟨notes, hnotices, hnotes⟩
  rw [hnotices] at hnoted
  obtain ⟨note, hnote, heq⟩ := List.mem_map.1 hnoted
  cases heq
  exact absurd ((hnotes.mem_iff _).1 hnote).2 (by decide)

end SchemaPlan
