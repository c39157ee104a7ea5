import SchemaPlan.Json.Document
import SchemaPlan.Json.Token

/-!
# Reading JSON text

The tokens of a text drive a machine whose state is the stack of arrays and objects still open. A
comma must be followed by another entry, and nothing may follow the outermost value.
-/

set_option autoImplicit false
set_option relaxedAutoImplicit false

namespace SchemaPlan.Json

/-- The members read so far, the last one first. -/
abbrev Members := List (Option String × Document)

/-- An array or object that is still open, with the entries read so far, the last one first. An
object also holds the name of the member whose value comes next. -/
inductive Frame
  | array (items : List Document)
  | object (members : Members) (name : Option String)

/-- What has been read, and what may come next. -/
inductive ReadState
  /-- A value. -/
  | atValue (stack : List Frame)
  /-- The first item of an array, or its end. -/
  | atFirstItem (stack : List Frame)
  /-- The name of the first member of an object, or its end. -/
  | atFirstName (stack : List Frame)
  /-- The name of another member. -/
  | atName (members : Members) (stack : List Frame)
  /-- The colon behind a name. -/
  | atColon (members : Members) (name : Option String) (stack : List Frame)
  /-- A comma or the end of an array. -/
  | afterItem (items : List Document) (stack : List Frame)
  /-- A comma or the end of an object. -/
  | afterMember (members : Members) (stack : List Frame)
  /-- Nothing. -/
  | done (document : Document)

/-- Enters a complete value in the innermost open frame. -/
def ReadState.complete (document : Document) : List Frame → ReadState
  | [] => .done document
  | .array items :: stack => .afterItem (document :: items) stack
  | .object members name :: stack => .afterMember ((name, document) :: members) stack

/-- Starts a value. -/
def ReadState.start (stack : List Frame) : Token → Option ReadState
  | .openArray => some (.atFirstItem stack)
  | .openObject => some (.atFirstName stack)
  | .null => some (complete .null stack)
  | .bool value => some (complete (.bool value) stack)
  | .number value => some (complete (.number value) stack)
  | .string text => some (complete (.string text) stack)
  | .closeArray | .closeObject | .comma | .colon => none

/-- Reads one token. -/
def ReadState.step : ReadState → Token → Option ReadState
  | .atValue stack, token => start stack token
  | .atFirstItem stack, .closeArray => some (complete (.array []) stack)
  | .atFirstItem stack, token => start (.array [] :: stack) token
  | .atFirstName stack, .closeObject => some (complete (.object []) stack)
  | .atFirstName stack, .string name => some (.atColon [] name stack)
  | .atName members stack, .string name => some (.atColon members name stack)
  | .atColon members name stack, .colon => some (.atValue (.object members name :: stack))
  | .afterItem items stack, .comma => some (.atValue (.array items :: stack))
  | .afterItem items stack, .closeArray => some (complete (.array items.reverse) stack)
  | .afterMember members stack, .comma => some (.atName members stack)
  | .afterMember members stack, .closeObject => some (complete (.object members.reverse) stack)
  | _, _ => none

/-- Reads tokens one after the other. -/
def ReadState.run (state : ReadState) : List Token → Option ReadState
  | [] => some state
  | token :: rest =>
    match state.step token with
    | some next => next.run rest
    | none => none

/-- The document of a sequence of tokens. -/
def Document.ofTokens? (tokens : List Token) : Option Document :=
  match (ReadState.atValue []).run tokens with
  | some (.done document) => some document
  | _ => none

/-- The document of a text; `none` when the text is not JSON. -/
def Document.ofText? (text : String) : Option Document :=
  match lex text.toList with
  | some tokens => ofTokens? tokens
  | none => none

/-- The greatest depth at which a text may nest. -/
def nestingLimit : Nat := 127

/-- The value of a text; `none` when the text is not JSON, nests too deep or has no value. -/
def Value.ofText? (text : String) : Option Value :=
  match Document.ofText? text with
  | some document => document.toValue? (some nestingLimit)
  | none => none

end SchemaPlan.Json
