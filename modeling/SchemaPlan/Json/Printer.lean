import SchemaPlan.Json.Decimal
import SchemaPlan.Json.Value

/-!
# Compact JSON text

A value without spaces, its members in the order they are held. In strings only the quote, the
backslash and the controls below U+0020 are escaped.
-/

set_option autoImplicit false
set_option relaxedAutoImplicit false

namespace SchemaPlan.Json

/-- A hexadecimal digit in lower case. -/
def hexDigit (n : Nat) : Char := Nat.digitChar n

/-- The written form of one character of a string. -/
def escapeChar (c : Char) : List Char :=
  if c = '"' then ['\\', '"']
  else if c = '\\' then ['\\', '\\']
  else if c = '\n' then ['\\', 'n']
  else if c = '\r' then ['\\', 'r']
  else if c = '\t' then ['\\', 't']
  else if c = '\x08' then ['\\', 'b']
  else if c = '\x0c' then ['\\', 'f']
  else if c.toNat < 0x20 then
    ['\\', 'u', '0', '0', hexDigit (c.toNat / 16), hexDigit (c.toNat % 16)]
  else [c]

/-- The written form of a string, with its quotes. -/
def quote (text : String) : List Char :=
  '"' :: (text.toList.flatMap escapeChar ++ ['"'])

namespace Value

mutual

/-- The written form of a value. -/
def print : Value → List Char
  | .null => ['n', 'u', 'l', 'l']
  | .bool true => ['t', 'r', 'u', 'e']
  | .bool false => ['f', 'a', 'l', 's', 'e']
  | .number value => value.render
  | .string text => quote text
  | .array items => '[' :: printItems items
  | .object members => '\x7b' :: printMembers members

/-- The rest of an array behind its opening bracket. -/
def printItems : List Value → List Char
  | [] => [']']
  | item :: rest => item.print ++ printMoreItems rest

/-- The rest of an array behind one of its items. -/
def printMoreItems : List Value → List Char
  | [] => [']']
  | item :: rest => ',' :: (item.print ++ printMoreItems rest)

/-- The rest of an object behind its opening brace. -/
def printMembers : List (String × Value) → List Char
  | [] => ['\x7d']
  | (name, value) :: rest => quote name ++ ':' :: (value.print ++ printMoreMembers rest)

/-- The rest of an object behind one of its members. -/
def printMoreMembers : List (String × Value) → List Char
  | [] => ['\x7d']
  | (name, value) :: rest => ',' :: (quote name ++ ':' :: (value.print ++ printMoreMembers rest))

end

/-- The compact text of a value. -/
def compress (value : Value) : String := String.ofList value.print

end Value

end SchemaPlan.Json
