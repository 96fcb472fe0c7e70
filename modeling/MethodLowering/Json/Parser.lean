import MethodLowering.Json.Value
import MethodLowering.Text.Parse

/-!
# Reading JSON text

The grammar is strict: no comments, no trailing commas, no leading zeros, no raw control characters, and nothing but
blanks around the value.

* `Json.Numeral`, `Json.Numeral.number?` -- a numeral, and the number it stands for;
* `Json.text` -- a string, whose escapes may fail to denote a character;
* `Json.parse?` -- the value of a text.
-/

namespace MethodLowering

namespace Json

open Parse

/-- Reads blanks. -/
def blanks : Parse Unit := do
  let _ ← takeWhile fun c => c == ' ' || c == '\t' || c == '\n' || c == '\r'

/-! ## 1. Numbers -/

/-- A numeral as it is written. -/
structure Numeral where
  negative : Bool
  /-- Digits before the point. -/
  whole : List Nat
  /-- Digits behind the point, if there is one. -/
  fraction : Option (List Nat)
  exponent : Option Int
  deriving DecidableEq, Repr

namespace Numeral

/-- The value of a digit. -/
def digit (c : Char) : Nat :=
  c.toNat - '0'.toNat

/-- The whole number with the given digits. -/
def ofDigits (digits : List Nat) : Nat :=
  digits.foldl (fun n d => n * 10 + d) 0

/-- Appends digits to a significand as long as it stays below `2 ^ 64`, and gives the digits left. -/
def absorb (significand : Nat) : List Nat → Nat × List Nat
  | [] => (significand, [])
  | d :: rest =>
    if significand * 10 + d < UInt64.size then absorb (significand * 10 + d) rest else (significand, d :: rest)

/-- The double of a numeral. Of the digits, those count that fit a significand of 64 bits; further ones before the point
only move it. -/
def double? (numeral : Numeral) : Option Double :=
  let fraction := numeral.fraction.getD []
  let (significand, wholeLeft) := absorb 0 numeral.whole
  let (significand, fractionLeft) := absorb significand fraction
  let places : Int := fraction.length - fractionLeft.length
  Double.ofDecimal numeral.negative significand (numeral.exponent.getD 0 + wholeLeft.length - places)

/-- **The number of a numeral.** Whole numbers from `-2 ^ 63` to `2 ^ 64 - 1` written without fraction and exponent are
kept as such, but for a negative zero; all other numerals are doubles, and one beyond these has no number. -/
def number? (numeral : Numeral) : Option Number :=
  let n := ofDigits numeral.whole
  if numeral.fraction.isNone ∧ numeral.exponent.isNone then
    if ¬numeral.negative ∧ n < UInt64.size then
      some (.int n)
    else if numeral.negative ∧ 0 < n ∧ n ≤ Nat.pow 2 63 then
      some (.int (-n))
    else
      numeral.double?.map .float
  else
    numeral.double?.map .float

end Numeral

/-- Reads digits. -/
def digits : Parse (List Nat) := do
  return (← takeWhile1 Char.isDigit).map Numeral.digit

/-- Reads the digits before the point: a single zero, or digits that do not start with one. -/
def wholeDigits : Parse (List Nat) :=
  (do char '0'; return [0]) <|> digits

/-- Reads the mark, the sign and the digits of an exponent. -/
def exponent : Parse Int := do
  let _ ← satisfy fun c => c == 'e' || c == 'E'
  let sign ← maybe (satisfy fun c => c == '+' || c == '-')
  let size := Numeral.ofDigits (← digits)
  return if sign == some '-' then -size else size

/-- Reads a numeral. -/
def numeral : Parse Numeral := do
  let negative := (← maybe (char '-')).isSome
  let whole ← wholeDigits
  let fraction ← maybe (do char '.'; digits)
  let exponent ← maybe exponent
  return { negative, whole, fraction, exponent }

/-! ## 2. Strings -/

/-- The value of a hexadecimal digit. -/
def hexDigit (c : Char) : Nat :=
  if c.isDigit then c.toNat - '0'.toNat
  else if 'a' ≤ c ∧ c ≤ 'f' then c.toNat - 'a'.toNat + 10
  else c.toNat - 'A'.toNat + 10

/-- Whether a character is a hexadecimal digit. -/
def isHexDigit (c : Char) : Bool :=
  c.isDigit || ('a' ≤ c && c ≤ 'f') || ('A' ≤ c && c ≤ 'F')

/-- Reads four hexadecimal digits. -/
def codeUnit : Parse Nat := do
  return (← exactly 4 isHexDigit).foldl (fun n c => n * 16 + hexDigit c) 0

/-- Reads the second half of a surrogate pair. -/
def lowSurrogate : Parse Nat := do
  literal "\\u"
  let low ← codeUnit
  ensure (0xDC00 ≤ low && low ≤ 0xDFFF)
  return low

/-- Reads the code behind an escape `u`. Half of a surrogate pair is no character. -/
def codeEscape : Parse (Option Char) := do
  let unit ← codeUnit
  if 0xD800 ≤ unit ∧ unit ≤ 0xDBFF then
    match ← maybe lowSurrogate with
    | some low => return some (Char.ofNat (0x10000 + (unit - 0xD800) * 0x400 + (low - 0xDC00)))
    | none => return none
  else if 0xDC00 ≤ unit ∧ unit ≤ 0xDFFF then
    return none
  else
    return some (Char.ofNat unit)

/-- Reads what stands behind a backslash. -/
def escape : Parse (Option Char) := do
  match ← satisfy fun _ => true with
  | '"' => return some '"'
  | '\\' => return some '\\'
  | '/' => return some '/'
  | 'b' => return some '\x08'
  | 'f' => return some '\x0c'
  | 'n' => return some '\n'
  | 'r' => return some '\r'
  | 't' => return some '\t'
  | 'u' => codeEscape
  | _ => fail

/-- Reads one character of a string, written as itself or as an escape. -/
def stringChar : Parse (Option Char) :=
  (do char '\\'; escape) <|>
    (do return some (← satisfy fun c => c != '"' && c != '\\' && ' ' ≤ c))

/-- Reads a string; nothing when one of its escapes is no character. -/
def text : Parse (Option String) := do
  char '"'
  let chars ← many stringChar
  char '"'
  return (chars.mapM id).map String.ofList

/-! ## 3. Values -/

/-- Reads a word. -/
def word (spelling : String) (value : Json) : Parse Json := do
  literal spelling
  return value

/-- Reads an array of items. -/
def items (item : Parse Json) : Parse Json := do
  char '['
  blanks
  let items ← sepBy (item <* blanks) (char ',' *> blanks)
  char ']'
  return .array items

/-- Reads a key, a colon and an item. -/
def member (item : Parse Json) : Parse (Option String × Json) := do
  let key ← text
  blanks
  char ':'
  blanks
  let value ← item
  return (key, value)

/-- Reads an object of items. -/
def members (item : Parse Json) : Parse Json := do
  char '\x7b'
  blanks
  let members ← sepBy (member item <* blanks) (char ',' *> blanks)
  char '\x7d'
  match members.mapM fun (key, value) => key.map fun key => (key, value) with
  | some members => return .object members
  | none => return .unreadable

/-- Reads a value nested to at most a depth. -/
def value (depth : Nat) : Parse Json :=
  match depth with
  | 0 => fail
  | depth + 1 => do
    match ← peek? with
    | some '"' => return ((← text).map .string).getD .unreadable
    | some '[' => items (value depth)
    | some '\x7b' => members (value depth)
    | some 'n' => word "null" .null
    | some 't' => word "true" (.bool true)
    | some 'f' => word "false" (.bool false)
    | _ => return ((← numeral).number?.map .number).getD .unreadable

/-- **The value of a text.** No value is nested deeper than its text is long. -/
def parse? (source : String) : Option Json :=
  (do blanks; let result ← value source.length; blanks; return result : Parse Json).parse? source

end Json

end MethodLowering
