import SchemaPlan.Json.Number

/-!
# JSON tokens

`lex` cuts a text into tokens. A string token holds its text, or nothing when an escape in it is an
unpaired surrogate; a number token holds its value, or nothing when it is too large. Such tokens are
well formed, and only reading their content fails.
-/

set_option autoImplicit false
set_option relaxedAutoImplicit false

namespace SchemaPlan.Json

/-- A token of JSON text. -/
inductive Token
  | openArray
  | closeArray
  | openObject
  | closeObject
  | comma
  | colon
  | null
  | bool (value : Bool)
  | number (value : Option Number)
  | string (text : Option String)
deriving DecidableEq

/-! ### Strings -/

/-- A piece of a written string: a character, or the code unit of a four-digit escape. -/
inductive Piece
  | char (c : Char)
  | unit (code : Nat)
deriving DecidableEq

/-- The value of a hexadecimal digit in either case. -/
def hexValue? (c : Char) : Option Nat :=
  if c.isDigit then some (c.toNat - '0'.toNat)
  else if 'a' ≤ c ∧ c ≤ 'f' then some (c.toNat - 'a'.toNat + 10)
  else if 'A' ≤ c ∧ c ≤ 'F' then some (c.toNat - 'A'.toNat + 10)
  else none

/-- The code unit that four hexadecimal digits write. -/
def codeUnit? (first second third fourth : Char) : Option Nat := do
  let first ← hexValue? first
  let second ← hexValue? second
  let third ← hexValue? third
  let fourth ← hexValue? fourth
  return ((first * 16 + second) * 16 + third) * 16 + fourth

/-- The character that a one-letter escape stands for. -/
def escaped? (c : Char) : Option Char :=
  if c = '"' ∨ c = '\\' ∨ c = '/' then some c
  else if c = 'n' then some '\n'
  else if c = 'r' then some '\r'
  else if c = 't' then some '\t'
  else if c = 'b' then some '\x08'
  else if c = 'f' then some '\x0c'
  else none

/-- Reads a string behind its opening quote: its pieces and what follows the closing quote. -/
def scanString : List Char → Option (List Piece × List Char)
  | [] => none
  | c :: rest =>
    if c = '"' then some ([], rest)
    else if c = '\\' then
      match rest with
      | 'u' :: first :: second :: third :: fourth :: more =>
        match codeUnit? first second third fourth, scanString more with
        | some code, some (pieces, after) => some (.unit code :: pieces, after)
        | _, _ => none
      | letter :: more =>
        match escaped? letter, scanString more with
        | some plain, some (pieces, after) => some (.char plain :: pieces, after)
        | _, _ => none
      | [] => none
    else if c.toNat < 0x20 then none
    else match scanString rest with
      | some (pieces, after) => some (.char c :: pieces, after)
      | none => none

/-- The first half of a surrogate pair. -/
def isHighSurrogate (code : Nat) : Bool := 0xD800 ≤ code && code < 0xDC00

/-- The second half of a surrogate pair. -/
def isLowSurrogate (code : Nat) : Bool := 0xDC00 ≤ code && code < 0xE000

/-- Joins surrogate pairs; `none` when a surrogate is unpaired. -/
def decodePieces : List Piece → Option (List Char)
  | [] => some []
  | .char c :: rest => (decodePieces rest).map (c :: ·)
  | .unit code :: rest =>
    if isHighSurrogate code then
      match rest with
      | .unit low :: more =>
        if isLowSurrogate low then
          let joined := 0x10000 + (code - 0xD800) * 0x400 + (low - 0xDC00)
          (decodePieces more).map (Char.ofNat joined :: ·)
        else none
      | _ => none
    else if isLowSurrogate code then none
    else (decodePieces rest).map (Char.ofNat code :: ·)

/-! ### Numbers -/

/-- The values of the digits in front. -/
def leadingDigits (chars : List Char) : List Nat :=
  (chars.takeWhile Char.isDigit).map fun c ↦ c.toNat - '0'.toNat

/-- What follows the digits in front. -/
def afterDigits (chars : List Char) : List Char := chars.dropWhile Char.isDigit

/-- An optional fraction: a point and at least one digit. -/
def scanFraction (chars : List Char) : Option (List Nat × List Char) :=
  match chars with
  | '.' :: rest =>
    if (leadingDigits rest).isEmpty then none else some (leadingDigits rest, afterDigits rest)
  | _ => some ([], chars)

/-- An optional sign: whether it is a minus, and what follows. -/
def scanSign (chars : List Char) : Bool × List Char :=
  match chars with
  | '-' :: rest => (true, rest)
  | '+' :: rest => (false, rest)
  | _ => (false, chars)

/-- An optional exponent: its letter, an optional sign and at least one digit. -/
def scanExponent (chars : List Char) : Option ((Bool × List Nat) × List Char) :=
  match chars with
  | c :: rest =>
    if c = 'e' ∨ c = 'E' then
      let (negative, digits) := scanSign rest
      if (leadingDigits digits).isEmpty then none
      else some ((negative, leadingDigits digits), afterDigits digits)
    else some ((false, []), chars)
  | [] => some ((false, []), chars)

/-- A number behind its sign. Its whole part is a single zero or starts with another digit. -/
def scanUnsigned (negative : Bool) (chars : List Char) : Option (Numeral × List Char) :=
  let whole := leadingDigits chars
  if whole.isEmpty ∨ (whole.head? = some 0 ∧ 1 < whole.length) then none
  else match scanFraction (afterDigits chars) with
    | none => none
    | some (fraction, rest) =>
      match scanExponent rest with
      | none => none
      | some ((exponentNegative, exponent), rest) =>
        some (⟨negative, whole, fraction, exponentNegative, exponent⟩, rest)

/-- A number. -/
def scanNumeral (chars : List Char) : Option (Numeral × List Char) :=
  match chars with
  | '-' :: rest => scanUnsigned true rest
  | _ => scanUnsigned false chars

/-! ### Tokens -/

/-- The four characters that may stand between tokens. -/
def isSpace (c : Char) : Bool := c == ' ' || c == '\n' || c == '\r' || c == '\t'

/-- The token that starts with `c`, and what follows it. -/
def scanToken (c : Char) (rest : List Char) : Option (Token × List Char) :=
  match c with
  | '[' => some (.openArray, rest)
  | ']' => some (.closeArray, rest)
  | '\x7b' => some (.openObject, rest)
  | '\x7d' => some (.closeObject, rest)
  | ',' => some (.comma, rest)
  | ':' => some (.colon, rest)
  | 'n' =>
    match rest with
    | 'u' :: 'l' :: 'l' :: more => some (.null, more)
    | _ => none
  | 't' =>
    match rest with
    | 'r' :: 'u' :: 'e' :: more => some (.bool true, more)
    | _ => none
  | 'f' =>
    match rest with
    | 'a' :: 'l' :: 's' :: 'e' :: more => some (.bool false, more)
    | _ => none
  | '"' =>
    match scanString rest with
    | some (pieces, more) => some (.string ((decodePieces pieces).map String.ofList), more)
    | none => none
  | _ =>
    match scanNumeral (c :: rest) with
    | some (numeral, more) => some (.number numeral.toNumber?, more)
    | none => none

/-! ### Progress -/

theorem length_afterDigits_le (chars : List Char) : (afterDigits chars).length ≤ chars.length :=
  (List.dropWhile_suffix _).length_le

theorem length_afterDigits_lt {chars : List Char} (h : (leadingDigits chars).isEmpty = false) :
    (afterDigits chars).length < chars.length := by
  cases chars with
  | nil => simp [leadingDigits] at h
  | cons c rest =>
    cases hc : c.isDigit with
    | false => simp [leadingDigits, hc] at h
    | true =>
      have hle := length_afterDigits_le rest
      simp only [afterDigits] at hle ⊢
      simp only [List.dropWhile, hc, List.length_cons]
      omega

/-- A string takes one character at least, its closing quote. -/
theorem length_of_scanString {chars : List Char} {pieces : List Piece} {after : List Char}
    (h : scanString chars = some (pieces, after)) : after.length < chars.length := by
  fun_induction scanString chars generalizing pieces after
  case case3 ih | case5 ih | case9 ih =>
    obtain ⟨rfl, rfl⟩ := Prod.mk.inj (Option.some.inj h)
    have := ih ‹_›
    simp only [List.length_cons]
    omega
  all_goals simp_all

theorem length_of_scanFraction {chars rest : List Char} {digits : List Nat}
    (h : scanFraction chars = some (digits, rest)) : rest.length ≤ chars.length := by
  unfold scanFraction at h
  split at h
  · next more =>
    have := length_afterDigits_le more
    grind
  · grind

theorem length_scanSign_le (chars : List Char) : (scanSign chars).2.length ≤ chars.length := by
  unfold scanSign
  split <;> simp

theorem length_of_scanExponent {chars rest : List Char} {exponent : Bool × List Nat}
    (h : scanExponent chars = some (exponent, rest)) : rest.length ≤ chars.length := by
  unfold scanExponent at h
  split at h
  · next c more =>
    have hsign := length_scanSign_le more
    have hdigits := length_afterDigits_le (scanSign more).2
    grind
  · grind

theorem length_of_scanUnsigned {negative : Bool} {chars rest : List Char} {numeral : Numeral}
    (h : scanUnsigned negative chars = some (numeral, rest)) : rest.length < chars.length := by
  simp only [scanUnsigned] at h
  split at h
  · simp at h
  · next hwhole =>
    have hstart : (afterDigits chars).length < chars.length :=
      length_afterDigits_lt (by grind)
    split at h
    · simp at h
    · next hfraction =>
      have := length_of_scanFraction hfraction
      split at h
      · simp at h
      · next hexponent =>
        have := length_of_scanExponent hexponent
        grind

/-- A numeral takes one digit at least. -/
theorem length_of_scanNumeral {chars rest : List Char} {numeral : Numeral}
    (h : scanNumeral chars = some (numeral, rest)) : rest.length < chars.length := by
  unfold scanNumeral at h
  split at h
  · have := length_of_scanUnsigned h
    simp only [List.length_cons]
    omega
  · exact length_of_scanUnsigned h

/-- Behind a token there is no more left than behind its first character. -/
theorem length_of_scanToken {c : Char} {rest more : List Char} {token : Token}
    (h : scanToken c rest = some (token, more)) : more.length ≤ rest.length := by
  unfold scanToken at h
  split at h
  case h_10 =>
    split at h
    · next hstring =>
      have := length_of_scanString hstring
      grind
    · simp at h
  case h_11 =>
    split at h
    · next hnumeral =>
      have := length_of_scanNumeral hnumeral
      grind
    · simp at h
  all_goals grind

/-! ### Texts -/

/-- The tokens of a text; `none` when it cannot be cut into tokens. -/
def lex (chars : List Char) : Option (List Token) :=
  match chars with
  | [] => some []
  | c :: rest =>
    if isSpace c then lex rest
    else match h : scanToken c rest with
      | none => none
      | some (token, more) =>
        have := length_of_scanToken h
        match lex more with
        | none => none
        | some tokens => some (token :: tokens)
termination_by chars.length
decreasing_by all_goals simp only [List.length_cons]; omega

end SchemaPlan.Json
