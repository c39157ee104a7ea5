/-!
# Parts of a text

Cutting a text at a separator, removing a suffix, and looking for one text inside another. A text
has the form `stem ++ suffix` exactly when `stem?` finds the stem (`stem?_eq_some_iff`).
-/

set_option autoImplicit false
set_option relaxedAutoImplicit false

namespace SchemaPlan.Text

/-- The texts between separators, one more than there are separators. -/
def splitOn (sep : Char) (text : String) : List String :=
  (text.toList.splitOn sep).map String.ofList

/-- The characters before `suffix`, when the list ends in it. -/
def dropSuffix? (suffix chars : List Char) : Option (List Char) :=
  if suffix.isSuffixOf chars then some (chars.take (chars.length - suffix.length)) else none

/-- The text before `suffix`, when the text ends in it. -/
def stem? (suffix text : String) : Option String :=
  (dropSuffix? suffix.toList text.toList).map String.ofList

/-- Whether `part` is a run of consecutive entries of the list. -/
def occursIn (part : List Char) : List Char → Bool
  | [] => part.isEmpty
  | c :: rest => part.isPrefixOf (c :: rest) || occursIn part rest

/-- Whether `part` occurs in the text. -/
def contains (part text : String) : Bool :=
  occursIn part.toList text.toList

theorem dropSuffix?_eq_some_iff {suffix chars stem : List Char} :
    dropSuffix? suffix chars = some stem ↔ chars = stem ++ suffix := by
  rw [dropSuffix?]
  split
  · next h =>
    obtain ⟨start, rfl⟩ := List.isSuffixOf_iff_suffix.1 h
    simp [eq_comm]
  · next h =>
    simp only [reduceCtorEq, false_iff]
    rintro rfl
    exact h (List.isSuffixOf_iff_suffix.2 (List.suffix_append stem suffix))

/-- A stem is found exactly when the text is that stem with the suffix behind it. -/
theorem stem?_eq_some_iff {suffix text stem : String} :
    stem? suffix text = some stem ↔ text = stem ++ suffix := by
  simp only [stem?, Option.map_eq_some_iff, dropSuffix?_eq_some_iff]
  constructor
  · rintro ⟨chars, h, rfl⟩
    apply String.toList_inj.1
    simpa using h
  · rintro rfl
    exact ⟨stem.toList, by simp, by simp⟩

end SchemaPlan.Text
