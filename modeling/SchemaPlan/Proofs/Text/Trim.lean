import Mathlib
import SchemaPlan.Text.Ascii
import SchemaPlan.Text.Blank

/-!
# Trimmed texts

A text is trimmed when no blank stands at either end. Every text is a trimmed one between blanks
(`exists_eq_append_trim`), and trimming gives back whichever that is (`trim_append`). Letters are no
blanks, so changing their case keeps a text trimmed (`isTrimmed_asciiLower_iff`).
-/

set_option autoImplicit false
set_option relaxedAutoImplicit false

namespace SchemaPlan.Text

/-- No blank stands at either end of the text. -/
structure IsTrimmed (text : String) : Prop where
  head : ∀ c, text.toList.head? = some c → isBlank c = false
  last : ∀ c, text.toList.getLast? = some c → isBlank c = false

/-- All characters of the text are blanks. -/
def AreBlanks (text : String) : Prop := ∀ c ∈ text.toList, isBlank c

variable {text core before behind : String}

/-! ### Trimming -/

theorem trimEnd_eq_rdropWhile (chars : List Char) : trimEnd chars = chars.rdropWhile isBlank := rfl

/-- Trimming leaves a trimmed text. -/
theorem isTrimmed_trim (text : String) : IsTrimmed (trim text) where
  head c hc := not_isBlank_head_trimBlanks (by simpa [trim] using hc)
  last c hc := not_isBlank_getLast_trimBlanks (by simpa [trim] using hc)

/-- A text is what trimming leaves, between blanks. -/
theorem exists_eq_append_trim (text : String) :
    ∃ before behind, AreBlanks before ∧ AreBlanks behind ∧
      text = before ++ trim text ++ behind := by
  refine ⟨String.ofList (text.toList.takeWhile isBlank),
    String.ofList ((text.toList.dropWhile isBlank).rtakeWhile isBlank), ?_, ?_, ?_⟩
  · intro c hc
    exact List.mem_takeWhile_imp (String.toList_ofList ▸ hc)
  · intro c hc
    exact List.mem_rtakeWhile_imp (String.toList_ofList ▸ hc)
  · apply String.toList_inj.1
    simp only [trim, trimBlanks, trimEnd_eq_rdropWhile, String.toList_append, String.toList_ofList]
    rw [List.append_assoc, List.rdropWhile_append_rtakeWhile, List.takeWhile_append_dropWhile]

theorem dropWhile_isBlank_append {blanks chars : List Char} (hblanks : ∀ c ∈ blanks, isBlank c)
    (hhead : ∀ c, chars.head? = some c → isBlank c = false) :
    (blanks ++ chars).dropWhile isBlank = chars := by
  rw [List.dropWhile_append_of_pos hblanks]
  cases chars with
  | nil => rfl
  | cons c rest => exact List.dropWhile_cons_of_neg (by simpa using hhead c rfl)

/-- Trimming a text between blanks gives back the text, if it is trimmed. -/
theorem trim_append (hbefore : AreBlanks before) (hbehind : AreBlanks behind)
    (hcore : IsTrimmed core) : trim (before ++ core ++ behind) = core := by
  apply String.toList_inj.1
  simp only [trim, trimBlanks, String.toList_append, String.toList_ofList, List.append_assoc]
  by_cases hnil : core.toList = []
  · -- Blanks alone: all of them are dropped at the front.
    have hall : ∀ c ∈ before.toList ++ behind.toList, isBlank c :=
      List.forall_mem_append.2 ⟨hbefore, hbehind⟩
    have hdropped : (before.toList ++ behind.toList).dropWhile isBlank = [] :=
      List.dropWhile_eq_nil_iff.2 hall
    rw [hnil, List.nil_append, hdropped]
    rfl
  · have hhead : ∀ c, (core.toList ++ behind.toList).head? = some c → isBlank c = false := by
      rw [List.head?_append_of_ne_nil _ hnil]
      exact hcore.head
    have hlast : ∀ c, core.toList.reverse.head? = some c → isBlank c = false := by
      rw [List.head?_reverse]
      exact hcore.last
    have hbehind' : ∀ c ∈ behind.toList.reverse, isBlank c := fun c hc ↦
      hbehind c (List.mem_reverse.1 hc)
    rw [dropWhile_isBlank_append hbefore hhead, trimEnd, List.reverse_append,
      dropWhile_isBlank_append hbehind' hlast, List.reverse_reverse]

/-- A trimmed text stays as it is. -/
theorem trim_of_isTrimmed (h : IsTrimmed text) : trim text = text := by
  have hnothing : AreBlanks "" := by simp [AreBlanks]
  simpa using trim_append hnothing hnothing h

theorem length_trim_le (text : String) : (trim text).length ≤ text.length := by
  obtain ⟨before, behind, -, -, htext⟩ := exists_eq_append_trim text
  have hlength := congrArg String.length htext
  rw [String.length_append, String.length_append] at hlength
  omega

/-- A text that does not get shorter by trimming stays as it is. -/
theorem trim_eq_self_of_length_le (h : text.length ≤ (trim text).length) : trim text = text := by
  obtain ⟨before, behind, -, -, htext⟩ := exists_eq_append_trim text
  have hlength := congrArg String.length htext
  rw [String.length_append, String.length_append] at hlength
  have hbefore : before = "" := String.length_eq_zero_iff.1 (by omega)
  have hbehind : behind = "" := String.length_eq_zero_iff.1 (by omega)
  rw [hbefore, hbehind, String.empty_append, String.append_empty] at htext
  exact htext.symm

/-! ### Letters -/

/-- Letters are no blanks. -/
theorem isBlank_of_isAlpha {c : Char} (h : c.isAlpha) : isBlank c = false := by
  have hcode : 65 ≤ c.toNat ∧ c.toNat ≤ 90 ∨ 97 ≤ c.toNat ∧ c.toNat ≤ 122 := by
    simpa [Char.isAlpha, Char.isUpper, Char.isLower, UInt32.le_iff_toNat_le] using h
  simp only [isBlank, Bool.or_eq_false_iff, Bool.and_eq_false_iff, decide_eq_false_iff_not,
    beq_eq_false_iff_ne]
  omega

/-- A character that is no letter is the lower-case form of itself alone. -/
theorem toLower_eq_iff {c d : Char} (hd : d.isAlpha = false) : c.toLower = d ↔ c = d := by
  have hself {e : Char} (he : e.isAlpha = false) : e.toLower = e :=
    Char.toLower_eq_of_not_isUpper fun hupper ↦ by simp [Char.isAlpha, hupper] at he
  constructor
  · intro h
    have hc : c.isAlpha = false := by rw [← Char.isAlpha_toLower_eq_isAlpha, h, hd]
    rw [← h, hself hc]
  · rintro rfl
    exact hself hd

/-- A character is a blank when its lower-case form is. -/
theorem isBlank_toLower (c : Char) : isBlank c.toLower = isBlank c := by
  cases hc : c.isAlpha with
  | true =>
    rw [isBlank_of_isAlpha hc, isBlank_of_isAlpha (by rwa [Char.isAlpha_toLower_eq_isAlpha])]
  | false => rw [(toLower_eq_iff hc).2 rfl]

@[simp] theorem toList_asciiLower (text : String) :
    (asciiLower text).toList = text.toList.map Char.toLower :=
  String.toList_ofList

theorem length_asciiLower (text : String) : (asciiLower text).length = text.length := by
  rw [← String.length_toList, toList_asciiLower, List.length_map, String.length_toList]

theorem asciiLower_asciiLower (text : String) : asciiLower (asciiLower text) = asciiLower text := by
  apply String.toList_inj.1
  simp

theorem forall_map_toLower_iff (found : Option Char) :
    (∀ c, found.map Char.toLower = some c → isBlank c = false) ↔
      ∀ c, found = some c → isBlank c = false := by
  cases found with
  | none => simp
  | some d => simp [isBlank_toLower]

theorem head_asciiLower_iff :
    (∀ c, (asciiLower text).toList.head? = some c → isBlank c = false) ↔
      ∀ c, text.toList.head? = some c → isBlank c = false := by
  rw [toList_asciiLower, List.head?_map, forall_map_toLower_iff]

theorem last_asciiLower_iff :
    (∀ c, (asciiLower text).toList.getLast? = some c → isBlank c = false) ↔
      ∀ c, text.toList.getLast? = some c → isBlank c = false := by
  rw [toList_asciiLower, List.getLast?_map, forall_map_toLower_iff]

/-- A text is trimmed when its lower-case form is. -/
theorem isTrimmed_asciiLower_iff : IsTrimmed (asciiLower text) ↔ IsTrimmed text :=
  ⟨fun h ↦ ⟨head_asciiLower_iff.1 h.head, last_asciiLower_iff.1 h.last⟩,
    fun h ↦ ⟨head_asciiLower_iff.2 h.head, last_asciiLower_iff.2 h.last⟩⟩

end SchemaPlan.Text
