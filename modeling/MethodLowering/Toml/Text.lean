import MethodLowering.Text.Parse

/-!
# The text of a TOML document: blanks, comments, strings, keys

* `Toml.blanks`, `Toml.newline`, `Toml.lineEnd`, `Toml.gap` -- what stands between the parts of a document;
* `Toml.text` -- a string in one of its four forms;
* `Toml.keyPart` -- a part of a key.
-/

namespace MethodLowering

namespace Toml

open Parse

/-! ## 1. Blanks and comments -/

/-- Whether a character is beyond ASCII. -/
def isNonAscii (c : Char) : Bool :=
  0x80 ≤ c.toNat

/-- Whether a character may stand in a line: a tab, or any that is no control. -/
def isPlain (c : Char) : Bool :=
  c == '\t' || (' ' ≤ c && c ≤ '~') || isNonAscii c

/-- Whether a character is a blank. -/
def isBlank (c : Char) : Bool :=
  c == ' ' || c == '\t'

/-- Reads blanks. -/
def blanks : Parse Unit := do
  let _ ← takeWhile isBlank

/-- Reads the end of a line: a line feed, perhaps with a carriage return before it. -/
def newline : Parse Unit :=
  char '\n' <|> literal "\r\n"

/-- Reads a comment. -/
def comment : Parse Unit := do
  char '#'
  let _ ← takeWhile isPlain

/-- Reads blanks and a comment up to the end of a line or of the document. -/
def lineEnd : Parse Unit := do
  blanks
  let _ ← maybe comment
  newline <|> atEnd

/-- Reads blanks, comments and ends of lines. -/
def gap : Parse Unit := do
  let _ ← many ((do let _ ← satisfy isBlank) <|> newline <|> (do comment; newline))

/-! ## 2. Strings -/

/-- Whether a character stands for itself in a string with escapes. -/
def isBasic (c : Char) : Bool :=
  isPlain c && c != '"' && c != '\\'

/-- Whether a character stands for itself in a string without escapes. -/
def isLiteral (c : Char) : Bool :=
  isPlain c && c != '\''

/-- The value of a digit in a base up to sixteen. -/
def digitValue (c : Char) : Nat :=
  if c.isDigit then c.toNat - '0'.toNat
  else if 'a' ≤ c then c.toNat - 'a'.toNat + 10
  else c.toNat - 'A'.toNat + 10

/-- Whether a character is a hexadecimal digit. -/
def isHexDigit (c : Char) : Bool :=
  c.isDigit || ('a' ≤ c && c ≤ 'f') || ('A' ≤ c && c ≤ 'F')

/-- The number of digits in a base. -/
def numberOf (base : Nat) (digits : List Char) : Nat :=
  digits.foldl (fun n c => n * base + digitValue c) 0

/-- Reads the code of a character with a number of hexadecimal digits. -/
def codePoint (count : Nat) : Parse Char := do
  let code := numberOf 16 (← exactly count isHexDigit)
  ensure (decide code.isValidChar)
  return Char.ofNat code

/-- Reads what stands behind a backslash. -/
def escape : Parse Char := do
  match ← satisfy fun _ => true with
  | 'b' => return '\x08'
  | 't' => return '\t'
  | 'n' => return '\n'
  | 'f' => return '\x0c'
  | 'r' => return '\r'
  | '"' => return '"'
  | '\\' => return '\\'
  | 'u' => codePoint 4
  | 'U' => codePoint 8
  | _ => fail

/-- Reads a string with escapes on one line. -/
def basicText : Parse String := do
  char '"'
  let chars ← many (satisfy isBasic <|> (do char '\\'; escape))
  char '"'
  return String.ofList chars

/-- Reads a string without escapes on one line. -/
def literalText : Parse String := do
  char '\''
  let chars ← takeWhile isLiteral
  char '\''
  return String.ofList chars

/-- Reads one or two quotes that do not close a string. -/
def innerQuotes (quote : Char) : Parse (List Char) := do
  let run ← takeWhile1 (· == quote)
  ensure (run.length ≤ 2)
  return run

/-- Reads the three quotes that close a string, with at most two more of its own before them. -/
def closingQuotes (quote : Char) : Parse (List Char) := do
  let run ← takeWhile1 (· == quote)
  ensure (3 ≤ run.length && run.length ≤ 5)
  return run.drop 3

/-- Reads a backslash at the end of a line with all blanks and ends of lines behind it, which stand for nothing. -/
def lineContinuation : Parse (List Char) := do
  char '\\'
  blanks
  newline
  let _ ← many ((do let _ ← satisfy isBlank) <|> newline)
  return []

/-- Reads a string on several lines. An end of line right behind the opening quotes is dropped, any other stands for a
line feed. -/
def longText (quote : Char) (piece : Parse (List Char)) : Parse String := do
  literal (String.ofList [quote, quote, quote])
  let _ ← maybe newline
  let pieces ← many (piece <|> (do newline; return ['\n']) <|> innerQuotes quote)
  let last ← closingQuotes quote
  return String.ofList (pieces.flatten ++ last)

/-- Reads a piece of a string with escapes on several lines. -/
def basicPiece : Parse (List Char) :=
  takeWhile1 isBasic <|> lineContinuation <|> (do char '\\'; return [← escape])

/-- Reads a string in one of its four forms. -/
def text : Parse String :=
  longText '"' basicPiece <|> basicText <|> longText '\'' (takeWhile1 isLiteral) <|> literalText

/-! ## 3. Keys -/

/-- Whether a character may stand in a key without quotes. -/
def isBare (c : Char) : Bool :=
  c.isAlphanum || c == '-' || c == '_'

/-- Reads a part of a key. -/
def keyPart : Parse String :=
  basicText <|> literalText <|> (do return String.ofList (← takeWhile1 isBare))

end Toml

end MethodLowering
