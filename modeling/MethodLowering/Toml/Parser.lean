import MethodLowering.Toml.Scalar

/-!
# Reading TOML text

* `Toml.key` -- a key of one or more parts;
* `Toml.value` -- a value, nested to a bounded depth;
* `Toml.statement` -- a line;
* `Toml.parse?` -- the document of a text.
-/

namespace MethodLowering

namespace Toml

open Parse

/-- Values are nested, and keys have parts, fewer times than this. -/
def nestingLimit : Nat := 80

/-! ## 1. Keys and values -/

/-- Reads a part of a key with blanks around it. -/
def paddedPart : Parse String := do
  blanks
  let part ← keyPart
  blanks
  return part

/-- Reads a key: parts with points between them. -/
def key : Parse Key := do
  let parts ← sepBy paddedPart (char '.')
  ensure (parts.length < nestingLimit)
  match parts.getLast? with
  | some last => return { parents := parts.dropLast, last }
  | none => fail

/-- Reads an array. Lines may end, and comments stand, between its parts, and a comma may stand behind its last item. -/
def items (item : Parse Toml) : Parse Toml := do
  char '['
  gap
  let items ← sepBy (item <* gap) (char ',' *> gap)
  if !items.isEmpty then
    let _ ← maybe (char ',')
  gap
  char ']'
  return .array items

/-- Reads a key and its value in an inline table. -/
def member (item : Parse Toml) : Parse (Key × Toml) := do
  let key ← key
  char '='
  blanks
  let value ← item
  blanks
  return (key, value)

/-- Reads an inline table, all on one line. -/
def members (item : Parse Toml) : Parse Toml := do
  char '\x7b'
  let members ← sepBy (member item) (char ',')
  blanks
  char '\x7d'
  ofOption (inlineTable? members)

/-- Reads a word. -/
def word (spelling : String) (value : Toml) : Parse Toml := do
  literal spelling
  return value

/-- Reads a value nested to at most a depth. -/
def value (depth : Nat) : Parse Toml := do
  match ← peek? with
  | some '"' | some '\'' => return .string (← text)
  | some 't' => word "true" (.boolean true)
  | some 'f' => word "false" (.boolean false)
  | some '[' =>
    match depth with
    | 0 => fail
    | depth + 1 => items (value depth)
  | some '\x7b' =>
    match depth with
    | 0 => fail
    | depth + 1 => members (value depth)
  | _ => scalar

/-! ## 2. Lines and documents -/

/-- Reads a key and its value to the end of the line. -/
def assignment : Parse Statement := do
  let key ← key
  char '='
  blanks
  let value ← value (nestingLimit - 1)
  lineEnd
  return .assign key value

/-- Reads a header to the end of the line. -/
def header : Parse Statement :=
  (do
    literal "[["
    let key ← key
    literal "]]"
    lineEnd
    return .openElement key) <|>
    (do
      char '['
      let key ← key
      char ']'
      lineEnd
      return .openTable key)

/-- Reads a line with nothing but blanks and a comment. -/
def emptyLine : Parse Unit := do
  blanks
  (do comment; newline <|> atEnd) <|> newline

/-- Reads a line, which may have no statement. -/
def statement : Parse (Option Statement) :=
  (do emptyLine; return none) <|>
    (do
      blanks
      match ← peek? with
      | some '[' => return some (← header)
      | _ => return some (← assignment))

/-- Reads a document; a byte order mark may stand before it. -/
def statements : Parse (List Statement) := do
  let _ ← maybe (char '\ufeff')
  let lines ← many statement
  blanks
  return lines.filterMap id

/-- **The document of a text.** -/
def parse? (source : String) : Option (Bindings Toml) :=
  (statements.parse? source).bind Document.ofStatements?

end Toml

end MethodLowering
