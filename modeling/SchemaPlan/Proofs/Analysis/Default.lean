import SchemaPlan.Analysis.Default
import SchemaPlan.Proofs.Json.Printing

/-!
# Spelled literals read back

Generated code holds a literal default as it is spelled. In a text field the spelling is a string
literal, whatever characters the content has; in any other field the spelling of a value that is no
string is JSON for that value, if its numbers are integers. A real may be spelled by digits that are
read as another real, so nothing is said of it.
-/

set_option autoImplicit false
set_option relaxedAutoImplicit false

namespace SchemaPlan

open Json

/-- Whether this is a string. -/
def Json.Value.isText : Value → Bool
  | .string _ => true
  | _ => false

theorem literalContent_of_not_isText {value : Value} (h : value.isText = false) :
    literalContent value = value.compress := by
  cases value <;> first | rfl | cases h

/-- Only literals of a text field are quoted. -/
theorem printLiteral_of_ne_string {type : FieldType} (h : type ≠ .string) (value : Value) :
    printLiteral type value = literalContent value := by
  cases type <;> first | rfl | exact absurd rfl h

/-- The spelling of a literal in a text field is one string literal: of the literal itself if it is
a string, and of its compact text otherwise. In other fields the spelling of a literal that is no
string and holds no real is read, however deep it nests, as what writes the literal, and so as the
literal if its objects hold their members in order, as those of a value that has been read do. -/
theorem ofText?_printLiteral :
    (∀ value : Value, ∃ content,
      Document.ofText? (printLiteral .string value) = some (.string (some content)) ∧
        (∀ text, value = .string text → content = text) ∧
        (value.isText = false → content = value.compress)) ∧
    ∀ (type : FieldType) (value : Value), type ≠ .string → value.isText = false →
      value.hasOnlyIntegers →
        Document.ofText? (printLiteral type value) = some (.ofValue value) ∧
        (value.IsNormal →
          (Document.ofText? (printLiteral type value)).bind (·.toValue? none) = some value) := by
  refine ⟨fun value ↦ ⟨literalContent value, Document.ofText?_quote _, ?_, ?_⟩, ?_⟩
  · rintro text rfl
    rfl
  · exact literalContent_of_not_isText
  · intro type value htype htext hintegers
    have hread : Document.ofText? (printLiteral type value) = some (.ofValue value) := by
      rw [printLiteral_of_ne_string htype, literalContent_of_not_isText htext]
      exact Document.ofText?_compress hintegers
    refine ⟨hread, fun hnormal ↦ ?_⟩
    rw [hread, Option.bind_some, Document.toValue?_ofValue hnormal]

/-- A literal with a quote, a backslash, a control and a character beyond ASCII in its texts. -/
def markedLiteral : Value :=
  .object [
    ("mark \"\\\"", .array [.string "\n\x01\u00E9", .number (.integer (-40) (by decide)), .null]),
    ("open", .object [("\u2028", .bool false), ("\u20AC", .object [])])]

/-- The marked literal is read back from its spelling, quoted or not. -/
theorem ofText?_printLiteral_marked :
    (∃ content,
      Document.ofText? (printLiteral .string markedLiteral) = some (.string (some content)) ∧
        markedLiteral.isText = false ∧ content = markedLiteral.compress) ∧
    FieldType.json ≠ .string ∧ markedLiteral.hasOnlyIntegers ∧ markedLiteral.IsNormal ∧
      (Document.ofText? (printLiteral .json markedLiteral)).bind (·.toValue? none) =
        some markedLiteral := by
  obtain ⟨hquoted, hplain⟩ := ofText?_printLiteral
  obtain ⟨content, hcontent, -, hcompact⟩ := hquoted markedLiteral
  have hnormal : markedLiteral.IsNormal := by
    refine ⟨by unfold Ascending; decide, ⟨trivial, trivial, trivial, trivial⟩,
      ⟨by unfold Ascending; decide, trivial, ⟨by unfold Ascending; decide, trivial⟩, trivial⟩,
      trivial⟩
  have hread := (hplain .json markedLiteral nofun rfl rfl).2 hnormal
  exact ⟨⟨content, hcontent, rfl, hcompact rfl⟩, nofun, rfl, hnormal, hread⟩

end SchemaPlan
