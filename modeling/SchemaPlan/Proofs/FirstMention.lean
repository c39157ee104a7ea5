import Mathlib.Data.List.Induction
import Mathlib.Data.List.Nodup

/-!
# Names in order of first mention

`List.eraseDups` keeps every name where it stands first. A further name is kept if it is new, so no
name is kept twice (`nodup_eraseDups`), the names stand in the order in which they are first
mentioned (`inFirstOrder_eraseDups`), and a list without repetitions stays as it is
(`eraseDups_eq_self`).
-/

set_option autoImplicit false
set_option relaxedAutoImplicit false

namespace SchemaPlan

/-- A name that is mentioned once more is not listed again. -/
theorem eraseDups_concat_of_mem {names : List String} {name : String} (h : name ∈ names) :
    (names ++ [name]).eraseDups = names.eraseDups := by
  rw [List.eraseDups_append]
  simp [List.removeAll, h]

/-- A name that is new is listed last. -/
theorem eraseDups_concat_of_not_mem {names : List String} {name : String} (h : name ∉ names) :
    (names ++ [name]).eraseDups = names.eraseDups ++ [name] := by
  rw [List.eraseDups_append]
  simp [List.removeAll, List.eraseDups_cons, h]

/-- Every name is listed once. -/
theorem nodup_eraseDups (names : List String) : names.eraseDups.Nodup := by
  induction names using List.reverseRecOn with
  | nil => exact List.nodup_nil
  | append_singleton names name ih =>
    by_cases hname : name ∈ names
    · rwa [eraseDups_concat_of_mem hname]
    · rw [eraseDups_concat_of_not_mem hname, ← List.concat_eq_append, List.nodup_concat]
      exact ⟨fun hmem ↦ hname (List.mem_eraseDups.1 hmem), ih⟩

/-- Names that do not repeat stay as they are. -/
theorem eraseDups_eq_self {names : List String} (h : names.Nodup) : names.eraseDups = names := by
  induction names using List.reverseRecOn with
  | nil => rfl
  | append_singleton names name ih =>
    rw [← List.concat_eq_append, List.nodup_concat] at h
    obtain ⟨hname, hnames⟩ := h
    rw [eraseDups_concat_of_not_mem hname, ih hnames]

/-- The names are mentioned, each for the first time behind all that stand before it. -/
def InFirstOrder (mentions names : List String) : Prop :=
  names.Pairwise fun first second ↦ mentions.idxOf first < mentions.idxOf second

/-- Names that are listed once stand in the order of their first mentions. -/
theorem inFirstOrder_eraseDups (names : List String) : InFirstOrder names names.eraseDups := by
  unfold InFirstOrder
  induction names using List.reverseRecOn with
  | nil => exact List.Pairwise.nil
  | append_singleton names name ih =>
    have hidx {other : String} (hother : other ∈ names.eraseDups) :
        (names ++ [name]).idxOf other = names.idxOf other :=
      List.idxOf_append_of_mem (List.mem_eraseDups.1 hother)
    have hfirst : names.eraseDups.Pairwise fun first second ↦
        (names ++ [name]).idxOf first < (names ++ [name]).idxOf second :=
      ih.imp_of_mem fun hone htwo hlt ↦ by rwa [hidx hone, hidx htwo]
    by_cases hname : name ∈ names
    · rwa [eraseDups_concat_of_mem hname]
    · rw [eraseDups_concat_of_not_mem hname]
      refine List.pairwise_append.2 ⟨hfirst, List.pairwise_singleton _ _, ?_⟩
      intro other hother last hlast
      obtain rfl := List.mem_singleton.1 hlast
      have hlt := List.idxOf_lt_length_of_mem (List.mem_eraseDups.1 hother)
      rw [hidx hother, List.idxOf_append_of_notMem hname]
      omega

theorem eraseDups_eq_nil_iff {names : List String} : names.eraseDups = [] ↔ names = [] := by
  simp only [List.eq_nil_iff_forall_not_mem, List.mem_eraseDups]

end SchemaPlan
