import MethodLowering.Json.Value
import MethodLowering.Number.Shortest

/-!
# Writing JSON text

Values are written without blanks, members in their order.

* `Json.numberFormat` -- the layout of numbers that are not whole;
* `Json.quote` -- a string in quotes;
* `Json.render` -- the text of a value.
-/

namespace MethodLowering

namespace Json

/-- Numbers have no exponent when the first digit has one from -5 to 15; else the exponent has a sign. -/
def numberFormat : DecimalFormat :=
  { positionalFrom := -5, positionalTo := 15, exponentMark := "e", plusSign := true }

/-- A digit in base sixteen, in lower case. -/
def lowerHexDigit (n : Nat) : Char :=
  Nat.digitChar (n % 16)

/-- A character of a string: quotes, backslashes and control characters are escaped, the last by a letter where they
have one. -/
def escapeChar (c : Char) : List Char :=
  if c = '"' then ['\\', '"']
  else if c = '\\' then ['\\', '\\']
  else if c = '\x08' then ['\\', 'b']
  else if c = '\t' then ['\\', 't']
  else if c = '\n' then ['\\', 'n']
  else if c = '\x0c' then ['\\', 'f']
  else if c = '\r' then ['\\', 'r']
  else if c < ' ' then ['\\', 'u', '0', '0', lowerHexDigit (c.toNat / 16), lowerHexDigit c.toNat]
  else [c]

/-- A string in quotes. -/
def quote (text : String) : String :=
  String.ofList ('"' :: text.toList.flatMap escapeChar ++ ['"'])

/-- The text of a number. -/
def Number.render : Number → String
  | int value => toString value
  | float value => value.render numberFormat

mutual

/-- **The text of a value.** What denotes no value is written as null. -/
def render : Json → String
  | null => "null"
  | bool value => if value then "true" else "false"
  | number value => value.render
  | string value => quote value
  | array items => "[" ++ ",".intercalate (renderItems items) ++ "]"
  | object members => "\x7b" ++ ",".intercalate (renderMembers members) ++ "\x7d"
  | unreadable => "null"

/-- The texts of the items of an array. -/
def renderItems : List Json → List String
  | [] => []
  | item :: rest => render item :: renderItems rest

/-- The texts of the members of an object. -/
def renderMembers : List (String × Json) → List String
  | [] => []
  | (key, value) :: rest => (quote key ++ ":" ++ render value) :: renderMembers rest

end

end Json

end MethodLowering
