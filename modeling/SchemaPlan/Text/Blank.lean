/-!
# Blanks and trimming

`isBlank` is the Unicode property White_Space. `trim` drops blanks at both ends of a text, and a
trimmed list of characters neither starts nor ends with one (`not_isBlank_head_trimBlanks`,
`not_isBlank_getLast_trimBlanks`).
-/

set_option autoImplicit false
set_option relaxedAutoImplicit false

namespace SchemaPlan.Text

/-- The characters with the property White_Space. The zero-width space U+200B and the byte order
mark U+FEFF do not have it. -/
def isBlank (c : Char) : Bool :=
  let code := c.toNat
  (0x09 ≤ code && code ≤ 0x0D) || code == 0x20 || code == 0x85 || code == 0xA0 ||
    code == 0x1680 || (0x2000 ≤ code && code ≤ 0x200A) || code == 0x2028 || code == 0x2029 ||
    code == 0x202F || code == 0x205F || code == 0x3000

/-- The characters without the blanks at their end. -/
def trimEnd (chars : List Char) : List Char :=
  (chars.reverse.dropWhile isBlank).reverse

/-- The characters without the blanks at either end. -/
def trimBlanks (chars : List Char) : List Char :=
  trimEnd (chars.dropWhile isBlank)

/-- The text without the blanks at either end. -/
def trim (text : String) : String :=
  String.ofList (trimBlanks text.toList)

theorem trimEnd_isPrefix_of (chars : List Char) : trimEnd chars <+: chars := by
  have hsuffix : chars.reverse.dropWhile isBlank <:+ chars.reverse := List.dropWhile_suffix _
  simpa [trimEnd] using List.reverse_prefix.2 hsuffix

/-- Trimmed characters do not end in a blank. -/
theorem not_isBlank_getLast_trimBlanks {chars : List Char} {c : Char}
    (h : (trimBlanks chars).getLast? = some c) : isBlank c = false := by
  have hhead := List.head?_dropWhile_not isBlank (chars.dropWhile isBlank).reverse
  rw [trimBlanks, trimEnd, List.getLast?_reverse] at h
  simpa [h] using hhead

/-- Trimmed characters do not start with a blank. -/
theorem not_isBlank_head_trimBlanks {chars : List Char} {c : Char}
    (h : (trimBlanks chars).head? = some c) : isBlank c = false := by
  have hhead := List.head?_dropWhile_not isBlank chars
  obtain ⟨rest, hrest⟩ := trimEnd_isPrefix_of (chars.dropWhile isBlank)
  have hkept : (chars.dropWhile isBlank).head? = some c := by
    rw [← hrest, List.head?_append, ← trimBlanks, h, Option.some_or]
  simpa [hkept] using hhead

end SchemaPlan.Text
