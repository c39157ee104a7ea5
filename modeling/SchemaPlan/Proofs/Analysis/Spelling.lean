import SchemaPlan.Analysis.Placeholder
import SchemaPlan.Proofs.Text.Trim

/-!
# Spellings of a function

A default is computed by a function whose name is compared in plain form. Names without blanks
around them, without a call behind them and without capital letters are plain, and they are the
names that are their own plain form (`canonicalName_eq_self_iff`). The plain form of a name takes
away the blanks, then one call, and then nothing more: behind the call there can be a blank or
another call (`LeavesRest`), and the form of such a name is not plain
(`isPlainName_canonicalName_iff`). All that the analysis of a field reads of a function is this form
(`readAlike_iff`), so it is the spellings of a plain name that are read alike
(`canonicalName_eq_iff_spells`).
-/

set_option autoImplicit false
set_option relaxedAutoImplicit false

namespace SchemaPlan

open Text

/-! ### Names -/

/-- A name in the form in which names are compared. -/
structure IsPlainName (name : String) : Prop where
  isTrimmed : IsTrimmed name
  noCall : ∀ stem, name ≠ stem ++ "()"
  noCapitals : ∀ c ∈ name.toList, c.isUpper = false

/-- Between the blanks around it the name ends in a call, and what is called ends in a blank or in
one more call. -/
def LeavesRest (name : String) : Prop :=
  ∃ stem, trim name = stem ++ "()" ∧
    ((∃ c, stem.toList.getLast? = some c ∧ isBlank c) ∨ ∃ inner, stem = inner ++ "()")

/-- The name is the word in some case of its letters, called or not, with or without blanks around
it. -/
def Spells (word name : String) : Prop :=
  ∃ before stem call behind, name = before ++ (stem ++ call) ++ behind ∧ AreBlanks before ∧
    AreBlanks behind ∧ (call = "" ∨ call = "()") ∧ equalsIgnoringAsciiCase stem word

variable {name stem text word : String}

/-! ### The plain form -/

/-- The plain form of a name that ends in a call is what is called, in lower case. -/
theorem canonicalName_of_call (h : trim name = stem ++ "()") :
    canonicalName name = asciiLower stem := by
  simp only [canonicalName, stem?_eq_some_iff.2 h, Option.getD_some]

/-- The plain form of a name without a call is the name without blanks around it, in lower case. -/
theorem canonicalName_of_no_call (h : ∀ stem, trim name ≠ stem ++ "()") :
    canonicalName name = asciiLower (trim name) := by
  have hstem : stem? "()" (trim name) = none :=
    Option.eq_none_iff_forall_ne_some.2 fun stem hstem ↦ h stem (stem?_eq_some_iff.1 hstem)
  simp only [canonicalName, hstem, Option.getD_none]

/-- What is called in a trimmed name does not start with a blank. -/
theorem head_stem_of_call (h : trim name = stem ++ "()") :
    ∀ c, stem.toList.head? = some c → isBlank c = false := by
  intro c hc
  refine (isTrimmed_trim name).head c ?_
  rw [h, String.toList_append, List.head?_append, hc, Option.some_or]

theorem isTrimmed_append_call (h : IsTrimmed stem) : IsTrimmed (stem ++ "()") where
  head c hc := by
    rw [String.toList_append, List.head?_append, Option.or_eq_some_iff] at hc
    rcases hc with hc | ⟨-, hc⟩
    · exact h.head c hc
    · obtain rfl : '(' = c := Option.some.inj hc
      decide
  last c hc := by
    rw [String.toList_append, List.getLast?_append] at hc
    obtain rfl : ')' = c := Option.some.inj hc
    decide

/-- What the plain form leaves behind is seen at the end of what is called. -/
theorem leavesRest_iff_of_call (h : trim name = stem ++ "()") :
    LeavesRest name ↔
      (∃ c, stem.toList.getLast? = some c ∧ isBlank c) ∨ ∃ inner, stem = inner ++ "()" := by
  constructor
  · rintro ⟨other, hother, hrest⟩
    obtain rfl : other = stem := (String.append_left_inj "()").1 (hother.symm.trans h)
    exact hrest
  · exact fun hrest ↦ ⟨stem, h, hrest⟩

/-! ### Lower case -/

/-- The texts that are their own lower-case form are those without capital letters. -/
theorem asciiLower_eq_self_iff :
    asciiLower text = text ↔ ∀ c ∈ text.toList, c.isUpper = false := by
  rw [← String.toList_inj, toList_asciiLower]
  constructor
  · intro h c hc
    rw [← h] at hc
    obtain ⟨d, -, rfl⟩ := List.mem_map.1 hc
    exact Char.isUpper_toLower_eq_false d
  · intro h
    have hself : text.toList.map Char.toLower = text.toList.map id :=
      List.map_congr_left fun c hc ↦ Char.toLower_eq_of_not_isUpper (by simp [h c hc])
    rw [hself, List.map_id]

/-- Changing the case of letters neither makes nor removes a call at the end. -/
theorem exists_asciiLower_eq_call_iff :
    (∃ stem, asciiLower text = stem ++ "()") ↔ ∃ stem, text = stem ++ "()" := by
  constructor
  · rintro ⟨stem, h⟩
    have hchars := congrArg String.toList h
    rw [toList_asciiLower, String.toList_append, List.map_eq_append_iff] at hchars
    obtain ⟨first, call, hfirst, -, hcall⟩ := hchars
    have hparens : call = ['(', ')'] := by
      change call.map Char.toLower = ['(', ')'] at hcall
      obtain ⟨c, rest, rfl, hc, hrest⟩ := List.map_eq_cons_iff.1 hcall
      obtain ⟨d, nothing, rfl, hd, hnothing⟩ := List.map_eq_cons_iff.1 hrest
      rw [(toLower_eq_iff rfl).1 hc, (toLower_eq_iff rfl).1 hd, List.map_eq_nil_iff.1 hnothing]
    refine ⟨String.ofList first, String.toList_inj.1 ?_⟩
    rw [hfirst, hparens, String.toList_append, String.toList_ofList]
    rfl
  · rintro ⟨stem, rfl⟩
    refine ⟨asciiLower stem, String.toList_inj.1 ?_⟩
    rw [toList_asciiLower, String.toList_append, List.map_append, String.toList_append,
      toList_asciiLower]
    rfl

/-- In lower case a text is plain when it is trimmed and has no call at its end. -/
theorem isPlainName_asciiLower_iff :
    IsPlainName (asciiLower text) ↔ IsTrimmed text ∧ ∀ stem, text ≠ stem ++ "()" := by
  have hcall : (∀ stem, asciiLower text ≠ stem ++ "()") ↔ ∀ stem, text ≠ stem ++ "()" := by
    simpa only [not_exists] using not_congr exists_asciiLower_eq_call_iff
  constructor
  · exact fun h ↦ ⟨isTrimmed_asciiLower_iff.1 h.isTrimmed, hcall.1 h.noCall⟩
  · rintro ⟨htrimmed, hnocall⟩
    exact ⟨isTrimmed_asciiLower_iff.2 htrimmed, hcall.2 hnocall,
      asciiLower_eq_self_iff.1 (asciiLower_asciiLower text)⟩

/-! ### When the form is plain -/

/-- The plain form never starts with a blank. -/
theorem head_canonicalName (name : String) :
    ∀ c, (canonicalName name).toList.head? = some c → isBlank c = false := by
  by_cases hcall : ∃ stem, trim name = stem ++ "()"
  · obtain ⟨stem, hstem⟩ := hcall
    rw [canonicalName_of_call hstem, head_asciiLower_iff]
    exact head_stem_of_call hstem
  · rw [canonicalName_of_no_call (not_exists.1 hcall), head_asciiLower_iff]
    exact (isTrimmed_trim name).head

/-- The plain form is plain unless something is left behind the call that is taken away. -/
theorem isPlainName_canonicalName_iff : IsPlainName (canonicalName name) ↔ ¬LeavesRest name := by
  by_cases hcall : ∃ stem, trim name = stem ++ "()"
  · obtain ⟨stem, hstem⟩ := hcall
    rw [canonicalName_of_call hstem, isPlainName_asciiLower_iff, leavesRest_iff_of_call hstem,
      not_or, not_exists, not_exists]
    refine and_congr_left fun _ ↦ ⟨fun htrimmed c hc ↦ ?_, fun hlast ↦ ?_⟩
    · exact absurd hc.2 (Bool.eq_false_iff.1 (htrimmed.last c hc.1))
    · exact ⟨head_stem_of_call hstem, fun c hc ↦ Bool.eq_false_iff.2 fun hblank ↦
        hlast c ⟨hc, hblank⟩⟩
  · have hnocall := not_exists.1 hcall
    rw [canonicalName_of_no_call hnocall, isPlainName_asciiLower_iff]
    refine iff_of_true ⟨isTrimmed_trim name, hnocall⟩ ?_
    rintro ⟨stem, hstem, -⟩
    exact hnocall stem hstem

/-- The plain names are those that are their own plain form. -/
theorem canonicalName_eq_self_iff : canonicalName name = name ↔ IsPlainName name := by
  constructor
  · intro h
    have hnocall : ∀ stem, trim name ≠ stem ++ "()" := by
      -- A call that is taken away leaves a shorter name.
      intro stem hstem
      have hlength := congrArg String.length h
      have hle := length_trim_le name
      rw [canonicalName_of_call hstem, length_asciiLower] at hlength
      rw [hstem, String.length_append] at hle
      have hcall : "()".length = 2 := rfl
      omega
    rw [canonicalName_of_no_call hnocall] at h
    have htrim : trim name = name := by
      refine trim_eq_self_of_length_le (le_of_eq ?_)
      rw [← congrArg String.length h, length_asciiLower]
    rw [htrim] at h hnocall
    exact ⟨htrim ▸ isTrimmed_trim name, hnocall, asciiLower_eq_self_iff.1 h⟩
  · intro h
    have htrim := trim_of_isTrimmed h.isTrimmed
    rw [canonicalName_of_no_call (htrim.symm ▸ h.noCall), htrim,
      asciiLower_eq_self_iff.2 h.noCapitals]

/-- A plain name is the form of its spellings and of no other name. -/
theorem canonicalName_eq_iff_spells (h : IsPlainName word) :
    canonicalName name = word ↔ Spells word name := by
  have hword := asciiLower_eq_self_iff.2 h.noCapitals
  constructor
  · intro hname
    obtain ⟨before, behind, hbefore, hbehind, htrim⟩ := exists_eq_append_trim name
    by_cases hcall : ∃ stem, trim name = stem ++ "()"
    · obtain ⟨stem, hstem⟩ := hcall
      rw [canonicalName_of_call hstem] at hname
      refine ⟨before, stem, "()", behind, hstem ▸ htrim, hbefore, hbehind, .inr rfl, ?_⟩
      rw [equalsIgnoringAsciiCase, hname, hword, beq_self_eq_true]
    · rw [canonicalName_of_no_call (not_exists.1 hcall)] at hname
      refine ⟨before, trim name, "", behind, ?_, hbefore, hbehind, .inl rfl, ?_⟩
      · rwa [String.append_empty]
      · rw [equalsIgnoringAsciiCase, hname, hword, beq_self_eq_true]
  · rintro ⟨before, stem, call, behind, rfl, hbefore, hbehind, hcall, hsame⟩
    rw [equalsIgnoringAsciiCase, beq_iff_eq, hword] at hsame
    obtain ⟨htrimmed, hnocall⟩ := isPlainName_asciiLower_iff.1 (hsame.symm ▸ h)
    rcases hcall with rfl | rfl
    · have htrim : trim (before ++ (stem ++ "") ++ behind) = stem := by
        rw [String.append_empty, trim_append hbefore hbehind htrimmed]
      rw [canonicalName_of_no_call (htrim.symm ▸ hnocall), htrim, hsame]
    · have hcalled : IsTrimmed (stem ++ "()") := isTrimmed_append_call htrimmed
      rw [canonicalName_of_call (trim_append hbefore hbehind hcalled), hsame]

/-! ### What is read of a function -/

/-- The field with a default that the function computes. -/
def Field.computedBy (field : Field) (name : String) (args : List Json.Value) : Field :=
  { field with initial := some (.function name args) }

/-- Every field is analysed alike when its default is computed by either function: it counts records
or not, has the same placeholder, and its default is spelled in the same way. -/
def ReadAlike (first second : String) : Prop :=
  ∀ (field : Field) (args : List Json.Value),
    (field.computedBy first args).isAutoIncrement =
        (field.computedBy second args).isAutoIncrement ∧
      (field.computedBy first args).placeholder = (field.computedBy second args).placeholder ∧
      (field.computedBy first args).defaultExpression? =
        (field.computedBy second args).defaultExpression?

/-- Functions are read alike exactly when their names have the same plain form. -/
theorem readAlike_iff {first second : String} :
    ReadAlike first second ↔ canonicalName first = canonicalName second := by
  constructor
  · intro h
    obtain ⟨-, -, hspelled⟩ := h { name := "", type := .int } []
    exact Option.some.inj hspelled
  · intro h field args
    simp only [Field.computedBy, Field.isAutoIncrement, Field.functionName?, Option.bind_some,
      FieldDefault.functionName?, Field.placeholder, Field.defaultExpression?, Option.map_some, h]
    exact ⟨trivial, rfl, trivial⟩

/-- The name that is read for a function starts with no blank. It is plain, is read for itself, and
stands for the function as it was spelled, each of these exactly when nothing is left behind the
call that is taken away. Of the plain names, it is the one that the function spells. -/
theorem FieldDefault.functionName?_settles_iff (name : String) (args : List Json.Value) :
    ∃ plain, (function name args).functionName? = some plain ∧
      (∀ c, plain.toList.head? = some c → isBlank c = false) ∧
      (IsPlainName plain ↔ ¬LeavesRest name) ∧
      ((∀ others, (function plain others).functionName? = some plain) ↔ ¬LeavesRest name) ∧
      (ReadAlike plain name ↔ ¬LeavesRest name) ∧
      ∀ word, IsPlainName word → (plain = word ↔ Spells word name) := by
  have hplain : IsPlainName (canonicalName name) ↔ ¬LeavesRest name :=
    isPlainName_canonicalName_iff
  have hself := canonicalName_eq_self_iff.trans hplain
  refine ⟨canonicalName name, rfl, head_canonicalName name, hplain, ?_,
    readAlike_iff.trans hself, fun word hword ↦ canonicalName_eq_iff_spells hword⟩
  rw [← hself]
  exact ⟨fun h ↦ Option.some.inj (h []), fun h others ↦ congrArg some h⟩

/-- A function that is called in capitals and with blanks around it spells a plain name. -/
theorem FieldDefault.functionName?_settles_uuid :
    (function "\u2003UUID() " []).functionName? = some "uuid" ∧ IsPlainName "uuid" ∧
      ReadAlike "uuid" "\u2003UUID() " ∧ Spells "uuid" "\u2003UUID() " := by
  have hplain : IsPlainName "uuid" := canonicalName_eq_self_iff.1 (by decide +kernel)
  obtain ⟨plain, hname, -, hsettled, -, halike, hspells⟩ :=
    functionName?_settles_iff "\u2003UUID() " []
  have huuid : (function "\u2003UUID() " []).functionName? = some "uuid" := by decide +kernel
  obtain rfl : plain = "uuid" := Option.some.inj (hname.symm.trans huuid)
  exact ⟨hname, hplain, halike.2 (hsettled.1 hplain), (hspells "uuid" hplain).1 rfl⟩

/-- A counter. -/
def counter : Field := { name := "number", type := .int }

/-- With a blank in front of the call, or a second call, what is read is neither plain nor read for
itself. So the counter does not count records any more. -/
theorem FieldDefault.not_isPlainName_spaced :
    (function "autoincrement ()" []).functionName? = some "autoincrement " ∧
      ¬IsPlainName "autoincrement " ∧
      (function "autoincrement " []).functionName? = some "autoincrement" ∧
      (function "now()()" []).functionName? = some "now()" ∧ ¬IsPlainName "now()" ∧
      (counter.computedBy "autoincrement()" []).isAutoIncrement = true ∧
      (counter.computedBy "autoincrement ()" []).isAutoIncrement = false ∧
      (counter.computedBy "autoincrement()" []).placeholder = .temporaryId ∧
      (counter.computedBy "autoincrement ()" []).placeholder = .null := by
  have hspaced : (canonicalName "autoincrement ") = "autoincrement" := by decide +kernel
  have hcalled : (canonicalName "now()") = "now" := by decide +kernel
  refine ⟨by decide +kernel, ?_, congrArg some hspaced, by decide +kernel, ?_, by decide +kernel,
    by decide +kernel, by decide +kernel, by decide +kernel⟩
  · intro h
    exact absurd ((canonicalName_eq_self_iff.2 h).symm.trans hspaced) (by decide)
  · intro h
    exact absurd ((canonicalName_eq_self_iff.2 h).symm.trans hcalled) (by decide)

end SchemaPlan
