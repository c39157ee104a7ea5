/-!
# Case of the letters A to Z

`asciiLower` lower-cases these letters and leaves every other character alone.
-/

set_option autoImplicit false
set_option relaxedAutoImplicit false

namespace SchemaPlan.Text

/-- The text with the letters A to Z lower-cased. -/
def asciiLower (text : String) : String :=
  String.ofList (text.toList.map Char.toLower)

/-- Equality up to the case of the letters A to Z. -/
def equalsIgnoringAsciiCase (first second : String) : Bool :=
  asciiLower first == asciiLower second

end SchemaPlan.Text
