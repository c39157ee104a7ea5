import Mathlib.Tactic.SplitIfs
import SchemaPlan.Json.Printer
import SchemaPlan.Json.Token

/-!
# Tokens of printed text

What is printed for a string is one token and writes that string, whatever characters stand in it
(`lex_quote`): a character is written as itself, by a letter or by its code (`EscapedAs`), and is
scanned back from either. The digits of an integer are one token as well, if no character follows
that could continue a number, and they write that integer (`lex_render_integer`).
-/

set_option autoImplicit false
set_option relaxedAutoImplicit false

namespace SchemaPlan.Json

/-! ### Cutting off one token -/

/-- A token that is cut off is the first of the text. -/
theorem lex_cons_of_scanToken {c : Char} {rest more : List Char} {token : Token}
    (hspace : isSpace c = false) (h : scanToken c rest = some (token, more)) :
    lex (c :: rest) = (lex more).map (token :: ·) := by
  rw [lex, if_neg (Bool.eq_false_iff.1 hspace)]
  split
  · next hnone =>
    rw [h] at hnone
    cases hnone
  · next hsome =>
    rw [h] at hsome
    cases hsome
    cases lex more <;> rfl

/-! ### Strings -/

/-- The three ways in which a character of a string is written. -/
inductive EscapedAs (c : Char) : List Char → Prop
  | letter {letter : Char} (ne_u : letter ≠ 'u') (escaped : escaped? letter = some c) :
    EscapedAs c ['\\', letter]
  | code (control : c.toNat < 0x20) :
    EscapedAs c ['\\', 'u', '0', '0', hexDigit (c.toNat / 16), hexDigit (c.toNat % 16)]
  | plain (ne_quote : c ≠ '"') (ne_backslash : c ≠ '\\') (not_control : ¬c.toNat < 0x20) :
    EscapedAs c [c]

theorem escapedAs_escapeChar (c : Char) : EscapedAs c (escapeChar c) := by
  unfold escapeChar
  split_ifs with hquote hbackslash hn hr ht hb hf hcontrol
  iterate 7
    · subst_vars
      exact .letter (by decide) rfl
  · exact .code hcontrol
  · exact .plain hquote hbackslash hcontrol

/-- Puts a piece in front of the pieces that have been scanned. -/
def consPiece (piece : Piece) (scanned : List Piece × List Char) : List Piece × List Char :=
  (piece :: scanned.1, scanned.2)

/-- A quote ends a string. -/
theorem scanString_quote (rest : List Char) : scanString ('"' :: rest) = some ([], rest) := by
  rw [scanString.eq_def]
  exact if_pos rfl

/-- A letter behind a backslash stands for another character. -/
theorem scanString_letter {letter plain : Char} (hu : letter ≠ 'u')
    (h : escaped? letter = some plain) (rest : List Char) :
    scanString ('\\' :: letter :: rest) = (scanString rest).map (consPiece (.char plain)) := by
  rw [scanString.eq_def]
  simp only [Char.reduceEq, if_false, if_true]
  split
  · next heq => exact absurd (List.cons.inj heq).1 hu
  · next heq =>
    cases heq
    rw [h]
    cases scanString rest <;> rfl
  · next heq => cases heq

/-- A character that is neither a quote, a backslash nor a control stands for itself. -/
theorem scanString_plain {c : Char} (hquote : c ≠ '"') (hbackslash : c ≠ '\\')
    (hcontrol : ¬c.toNat < 0x20) (rest : List Char) :
    scanString (c :: rest) = (scanString rest).map (consPiece (.char c)) := by
  rw [scanString.eq_def]
  simp only [hquote, hbackslash, hcontrol, if_false]
  cases scanString rest <;> rfl

/-- The code of a control is read from its two hexadecimal digits. -/
theorem codeUnit?_control {code : Nat} (h : code < 0x20) :
    codeUnit? '0' '0' (hexDigit (code / 16)) (hexDigit (code % 16)) = some code := by
  have hall : ∀ code < 0x20,
      codeUnit? '0' '0' (hexDigit (code / 16)) (hexDigit (code % 16)) = some code := by decide
  exact hall code h

theorem scanString_code {code : Nat} (h : code < 0x20) (rest : List Char) :
    scanString ('\\' :: 'u' :: '0' :: '0' :: hexDigit (code / 16) :: hexDigit (code % 16) :: rest) =
      (scanString rest).map (consPiece (.unit code)) := by
  rw [scanString.eq_def]
  simp only [Char.reduceEq, if_false, if_true, codeUnit?_control h]
  cases scanString rest <;> rfl

/-- The code of a control stands for that character. -/
theorem decodePieces_control {c : Char} (h : c.toNat < 0x20) (pieces : List Piece) :
    decodePieces (.unit c.toNat :: pieces) = (decodePieces pieces).map (c :: ·) := by
  have hhigh : ¬isHighSurrogate c.toNat := by
    simp only [isHighSurrogate, Bool.and_eq_true, decide_eq_true_eq]
    omega
  have hlow : ¬isLowSurrogate c.toNat := by
    simp only [isLowSurrogate, Bool.and_eq_true, decide_eq_true_eq]
    omega
  rw [decodePieces.eq_def]
  simp only [hhigh, hlow, Bool.false_eq_true, if_false, Char.ofNat_toNat]

/-- Scanning the written character gives one piece, and the piece stands for the character. -/
theorem exists_piece_of_escapedAs {c : Char} {written : List Char} (h : EscapedAs c written) :
    ∃ piece, (∀ rest, scanString (written ++ rest) = (scanString rest).map (consPiece piece)) ∧
      ∀ pieces, decodePieces (piece :: pieces) = (decodePieces pieces).map (c :: ·) := by
  cases h with
  | letter hu hescaped => exact ⟨.char c, scanString_letter hu hescaped, fun _ ↦ rfl⟩
  | code hcontrol => exact ⟨.unit c.toNat, scanString_code hcontrol, decodePieces_control hcontrol⟩
  | plain hquote hbackslash hcontrol =>
    exact ⟨.char c, scanString_plain hquote hbackslash hcontrol, fun _ ↦ rfl⟩

/-- Escaped characters up to a quote are scanned, and stand for what was escaped. -/
theorem exists_scanString_escaped (chars rest : List Char) :
    ∃ pieces, scanString (chars.flatMap escapeChar ++ '"' :: rest) = some (pieces, rest) ∧
      decodePieces pieces = some chars := by
  induction chars with
  | nil => exact ⟨[], scanString_quote rest, rfl⟩
  | cons c others ih =>
    obtain ⟨pieces, hscan, hdecode⟩ := ih
    obtain ⟨piece, hpiece, hstands⟩ := exists_piece_of_escapedAs (escapedAs_escapeChar c)
    refine ⟨piece :: pieces, ?_, ?_⟩
    · rw [List.flatMap_cons, List.append_assoc, hpiece, hscan, Option.map_some, consPiece]
    · rw [hstands, hdecode, Option.map_some]

/-- A quoted text is one token, which holds the text. -/
theorem lex_quote (text : String) (rest : List Char) :
    lex (quote text ++ rest) = (lex rest).map (.string (some text) :: ·) := by
  obtain ⟨pieces, hscan, hdecode⟩ := exists_scanString_escaped text.toList rest
  have htoken : scanToken '"' (text.toList.flatMap escapeChar ++ '"' :: rest) =
      some (.string (some text), rest) := by
    unfold scanToken
    rw [hscan]
    simp [hdecode]
  rw [quote, List.cons_append, List.append_assoc]
  exact lex_cons_of_scanToken rfl htoken

/-! ### Integers -/

/-- No number but zero starts with the digit zero. -/
theorem eq_zero_of_head?_toDigits {n : Nat} (h : (Nat.toDigits 10 n).head? = some '0') : n = 0 := by
  induction n using Nat.strongRecOn with
  | ind n ih =>
    rw [Nat.toDigits_eq_if (by decide)] at h
    split at h
    · next hlt =>
      have hall : ∀ n < 10, n.digitChar = '0' → n = 0 := by decide
      exact hall n hlt (Option.some.inj h)
    · have hhead : (Nat.toDigits 10 (n / 10)).head? = some '0' := by
        rwa [List.head?_append, Option.or_of_isSome (List.isSome_head?.2 Nat.toDigits_ne_nil)] at h
      have hquotient := ih (n / 10) (by omega) hhead
      omega

/-- The digits of a number, as a number token holds them. -/
def digitsOf (n : Nat) : List Nat := (Nat.toDigits 10 n).map fun c ↦ c.toNat - '0'.toNat

theorem digitsOf_ne_nil (n : Nat) : digitsOf n ≠ [] :=
  mt List.map_eq_nil_iff.1 Nat.toDigits_ne_nil

/-- The digits of a number have its value. -/
theorem foldl_digitsOf (n : Nat) :
    (digitsOf n).foldl (fun value digit ↦ value * 10 + digit) 0 = n := by
  have hvalue : Nat.ofDigitChars 10 (Nat.toDigits 10 n) 0 = n := Nat.ofDigitChars_ten_toDigits
  rw [digitsOf, List.foldl_map]
  simpa only [Nat.ofDigitChars_eq_foldl, Nat.mul_comm] using hvalue

/-- A leading zero is the only digit. -/
theorem length_digitsOf_of_head? {n : Nat} (h : (digitsOf n).head? = some 0) :
    (digitsOf n).length = 1 := by
  rw [digitsOf, List.head?_map] at h
  obtain ⟨c, hc, hzero⟩ := Option.map_eq_some_iff.1 h
  have hdigit : c.isDigit :=
    Nat.isDigit_of_mem_toDigits (by decide) (by decide) (List.mem_of_head? hc)
  have hchar : c = '0' := by
    rw [Char.isDigit_iff_toNat] at hdigit
    apply Char.toNat_inj.1
    omega
  have hn : n = 0 := eq_zero_of_head?_toDigits (hchar ▸ hc)
  rw [hn]
  rfl

/-- No character at the start continues a number. -/
def EndsNumber (rest : List Char) : Prop :=
  ∀ c, rest.head? = some c → c.isDigit = false ∧ c ≠ '.' ∧ c ≠ 'e' ∧ c ≠ 'E'

theorem endsNumber_nil : EndsNumber [] := nofun

theorem endsNumber_cons {c : Char} (h : c.isDigit = false ∧ c ≠ '.' ∧ c ≠ 'e' ∧ c ≠ 'E')
    (rest : List Char) : EndsNumber (c :: rest) := by
  rintro _ ⟨⟩
  exact h

section

variable {rest : List Char} (hrest : EndsNumber rest)
include hrest

theorem leadingDigits_toDigits (n : Nat) :
    leadingDigits (Nat.toDigits 10 n ++ rest) = digitsOf n := by
  have hdigits : ∀ c ∈ Nat.toDigits 10 n, c.isDigit := fun c hc ↦
    Nat.isDigit_of_mem_toDigits (by decide) (by decide) hc
  have hnone : rest.takeWhile Char.isDigit = [] := by
    cases rest with
    | nil => rfl
    | cons c others => exact List.takeWhile_cons_of_neg (Bool.eq_false_iff.1 (hrest c rfl).1)
  rw [leadingDigits, List.takeWhile_append_of_pos hdigits, hnone, List.append_nil, digitsOf]

theorem afterDigits_toDigits (n : Nat) : afterDigits (Nat.toDigits 10 n ++ rest) = rest := by
  have hdigits : ∀ c ∈ Nat.toDigits 10 n, c.isDigit := fun c hc ↦
    Nat.isDigit_of_mem_toDigits (by decide) (by decide) hc
  rw [afterDigits, List.dropWhile_append_of_pos hdigits]
  cases rest with
  | nil => rfl
  | cons c others => exact List.dropWhile_cons_of_neg (Bool.eq_false_iff.1 (hrest c rfl).1)

theorem scanFraction_of_endsNumber : scanFraction rest = some ([], rest) := by
  unfold scanFraction
  split
  · exact absurd rfl (hrest '.' rfl).2.1
  · rfl

theorem scanExponent_of_endsNumber : scanExponent rest = some ((false, []), rest) := by
  unfold scanExponent
  split
  · next c others => rw [if_neg (not_or.2 (hrest c rfl).2.2)]
  · rfl

/-- Digits that no other digit, point or exponent follows are a numeral of their own. -/
theorem scanUnsigned_toDigits (negative : Bool) (n : Nat) :
    scanUnsigned negative (Nat.toDigits 10 n ++ rest) =
      some (⟨negative, digitsOf n, [], false, []⟩, rest) := by
  have hwhole : ¬((digitsOf n).isEmpty ∨
      (digitsOf n).head? = some 0 ∧ 1 < (digitsOf n).length) := by
    rintro (hempty | ⟨hhead, hlength⟩)
    · exact digitsOf_ne_nil n (List.isEmpty_iff.1 hempty)
    · rw [length_digitsOf_of_head? hhead] at hlength
      exact absurd hlength (by decide)
  unfold scanUnsigned
  simp only [leadingDigits_toDigits hrest, hwhole, if_false, afterDigits_toDigits hrest,
    scanFraction_of_endsNumber hrest, scanExponent_of_endsNumber hrest]

end

/-- A numeral is one token. -/
theorem lex_of_scanNumeral {c : Char} (hc : c = '-' ∨ c.isDigit) {rest more : List Char}
    {numeral : Numeral} (h : scanNumeral (c :: rest) = some (numeral, more)) :
    lex (c :: rest) = (lex more).map (.number numeral.toNumber? :: ·) := by
  have hspace : isSpace c = false := by
    refine Bool.eq_false_iff.2 fun hspace ↦ ?_
    simp only [isSpace, Bool.or_eq_true, beq_iff_eq] at hspace
    rcases hspace with ((rfl | rfl) | rfl) | rfl <;> exact absurd hc (by decide)
  refine lex_cons_of_scanToken hspace ?_
  unfold scanToken
  split
  case h_11 => rw [h]
  all_goals exact absurd hc (by decide)

theorem scanNumeral_of_isDigit {c : Char} (h : c.isDigit) (rest : List Char) :
    scanNumeral (c :: rest) = scanUnsigned false (c :: rest) := by
  unfold scanNumeral
  split
  · next hminus =>
    rw [(List.cons.inj hminus).1] at h
    exact absurd h (by decide)
  · rfl

/-- The numeral that is printed for an integer. -/
def Numeral.ofInt (value : Int) : Numeral :=
  ⟨decide (value < 0), digitsOf value.natAbs, [], false, []⟩

/-- The numeral of an integer of a word is that integer. -/
theorem Numeral.toNumber?_ofInt {value : Int} (h : IsWord value) :
    (ofInt value).toNumber? = some (.integer value h) := by
  have hinteger : (ofInt value).integer? = Number.ofInt? value := by
    unfold integer? ofInt
    simp only [List.isEmpty_nil, Bool.and_self, if_true, foldl_digitsOf, decide_eq_true_eq]
    by_cases hneg : value < 0
    · rw [if_pos hneg, if_neg (by omega), ← Int.eq_neg_natAbs_of_nonpos (Int.le_of_lt hneg)]
    · rw [if_neg hneg, Int.natAbs_of_nonneg (Int.not_lt.1 hneg)]
  have hword : Number.ofInt? value = some (.integer value h) := dif_pos h
  rw [toNumber?, hinteger, hword]

/-- An integer that is written is scanned as its numeral. -/
theorem exists_scanNumeral_render {value : Int} (h : IsWord value) {rest : List Char}
    (hrest : EndsNumber rest) :
    ∃ c more, (Number.integer value h).render ++ rest = c :: more ∧ (c = '-' ∨ c.isDigit) ∧
      scanNumeral (c :: more) = some (.ofInt value, rest) := by
  have hscan := scanUnsigned_toDigits hrest (decide (value < 0)) value.natAbs
  rw [← Numeral.ofInt] at hscan
  rw [Number.render]
  by_cases hneg : value < 0
  · rw [decide_eq_true hneg] at hscan
    rw [if_pos hneg]
    exact ⟨'-', Nat.toDigits 10 value.natAbs ++ rest, rfl, .inl rfl, hscan⟩
  · obtain ⟨c, digits, hdigits⟩ := List.exists_cons_of_ne_nil
      (Nat.toDigits_ne_nil : Nat.toDigits 10 value.natAbs ≠ [])
    have hc : c.isDigit := Nat.isDigit_of_mem_toDigits (by decide) (by decide)
      (hdigits ▸ List.mem_cons_self : c ∈ Nat.toDigits 10 value.natAbs)
    rw [decide_eq_false hneg, hdigits, List.cons_append, ← scanNumeral_of_isDigit hc] at hscan
    rw [if_neg hneg, hdigits]
    exact ⟨c, digits ++ rest, rfl, .inr hc, hscan⟩

/-- An integer that is written is one token, which holds the integer. -/
theorem lex_render_integer {value : Int} (h : IsWord value) {rest : List Char}
    (hrest : EndsNumber rest) :
    lex ((Number.integer value h).render ++ rest) =
      (lex rest).map (.number (some (.integer value h)) :: ·) := by
  obtain ⟨c, more, hrender, hc, hscan⟩ := exists_scanNumeral_render h hrest
  rw [hrender, lex_of_scanNumeral hc hscan, Numeral.toNumber?_ofInt h]

end SchemaPlan.Json
