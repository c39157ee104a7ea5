import SchemaPlan.Text.Cut

/-!
# Cutting texts and joining their parts

The parts of a text that is cut at a separator do not hold it (`not_mem_of_mem_splitOn`), and such
parts come back when they are joined and the text is cut again (`splitOn_intercalate`).
-/

set_option autoImplicit false
set_option relaxedAutoImplicit false

namespace SchemaPlan.Text

theorem not_mem_and_subset_of_mem_splitOn {sep : Char} {chars part : List Char}
    (h : part ∈ chars.splitOn sep) : sep ∉ part ∧ part ⊆ chars := by
  induction chars generalizing part with
  | nil => simp_all [List.splitOn_nil]
  | cons c rest ih =>
    rw [List.splitOn_cons_eq_if_modifyHead] at h
    by_cases hc : c = sep
    · rw [if_pos (beq_iff_eq.2 hc)] at h
      rcases List.mem_cons.1 h with rfl | h
      · simp
      · exact ⟨(ih h).1, fun d hd ↦ List.mem_cons_of_mem c ((ih h).2 hd)⟩
    · rw [if_neg (by simpa using hc)] at h
      obtain ⟨first, others, hsplit⟩ := List.exists_cons_of_ne_nil (List.splitOn_ne_nil sep rest)
      rw [hsplit, List.modifyHead_cons] at h
      have hfirst := ih (hsplit ▸ List.mem_cons_self : first ∈ rest.splitOn sep)
      rcases List.mem_cons.1 h with rfl | h
      · exact ⟨by simp [Ne.symm hc, hfirst.1], List.cons_subset_cons c hfirst.2⟩
      · have hpart := ih (hsplit ▸ List.mem_cons_of_mem first h : part ∈ rest.splitOn sep)
        exact ⟨hpart.1, fun d hd ↦ List.mem_cons_of_mem c (hpart.2 hd)⟩

/-- A joined text has the characters of its parts and the separator. -/
theorem mem_intercalate_singleton {sep c : Char} {parts : List (List Char)}
    (h : c ∈ [sep].intercalate parts) : c = sep ∨ ∃ part ∈ parts, c ∈ part := by
  induction parts with
  | nil => simp at h
  | cons first rest ih =>
    cases rest with
    | nil => exact .inr ⟨first, List.mem_cons_self, by simpa using h⟩
    | cons second rest =>
      rw [List.intercalate_cons_cons] at h
      rcases List.mem_append.1 h with h | h
      · rcases List.mem_append.1 h with h | h
        · exact .inr ⟨first, List.mem_cons_self, h⟩
        · exact .inl (List.mem_singleton.1 h)
      · rcases ih h with rfl | ⟨part, hpart, hc⟩
        · exact .inl rfl
        · exact .inr ⟨part, List.mem_cons_of_mem first hpart, hc⟩

/-- A joined text does not start with the separator when its first part is not empty and does not
hold it. -/
theorem head?_intercalate_ne {sep : Char} {separator first : String} (hfirst : first ≠ "")
    (h : sep ∉ first.toList) (rest : List String) :
    (String.intercalate separator (first :: rest)).toList.head? ≠ some sep := by
  obtain ⟨c, chars, hc⟩ := List.exists_cons_of_ne_nil fun hnil ↦ hfirst (String.toList_inj.1 hnil)
  have hne : c ≠ sep := fun heq ↦ h (hc ▸ heq ▸ List.mem_cons_self)
  cases rest <;> simp [String.toList_intercalate, hc, hne]

/-- The parts of a text that is cut do not hold the separator and have no characters but those of
the text. -/
theorem not_mem_of_mem_splitOn {sep : Char} {text part : String} (h : part ∈ splitOn sep text) :
    sep ∉ part.toList ∧ part.toList ⊆ text.toList := by
  obtain ⟨chars, hchars, rfl⟩ := List.mem_map.1 h
  simpa using not_mem_and_subset_of_mem_splitOn hchars

/-- A separator cuts the text in front of it from the text behind it. -/
theorem splitOn_append_cons {sep : Char} (first second : List Char) :
    splitOn sep (String.ofList (first ++ sep :: second)) =
      splitOn sep (String.ofList first) ++ splitOn sep (String.ofList second) := by
  simp [splitOn, List.splitOn_append_cons_self]

/-- Parts that do not hold the separator come back when they are joined and the text is cut. -/
theorem splitOn_intercalate {sep : Char} {separator : String} (hsep : separator.toList = [sep])
    {parts : List String} (hne : parts ≠ []) (h : ∀ part ∈ parts, sep ∉ part.toList) :
    splitOn sep (String.intercalate separator parts) = parts := by
  have hparts : ∀ part ∈ parts.map String.toList, sep ∉ part := by simpa using h
  rw [splitOn, String.toList_intercalate, hsep,
    List.splitOn_intercalate _ hparts (by simpa using hne), List.map_map]
  simp

end SchemaPlan.Text
