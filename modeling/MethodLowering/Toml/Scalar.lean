import MethodLowering.Number.Shortest
import MethodLowering.Toml.Document
import MethodLowering.Toml.Text

/-!
# Numbers, dates and times of a TOML document

* `Toml.integerText` -- a whole number of 64 bits, in base ten, or in base sixteen, eight or two behind a prefix;
* `Toml.floatText` -- any other number;
* `Toml.momentText` -- a date, a time, or both;
* `Toml.scalar` -- one of these.
-/

namespace MethodLowering

namespace Toml

open Parse

/-! ## 1. Whole numbers -/

/-- Reads digits, between which single underscores may stand. -/
def digitRun (isDigit : Char → Bool) : Parse (List Char) := do
  let first ← satisfy isDigit
  return first :: (← many (satisfy isDigit <|> (do char '_'; satisfy isDigit)))

/-- Reads a sign; whether it is a minus. -/
def sign : Parse Bool := do
  return (← maybe (satisfy fun c => c == '+' || c == '-')) == some '-'

/-- Reads the digits of a number in base ten, which starts with a zero only where that is all. -/
def decimalDigits : Parse (List Char) :=
  (do char '0'; return ['0']) <|> digitRun Char.isDigit

/-- Reads a number in a base behind a prefix. -/
def inBase (mark : String) (base : Nat) (isDigit : Char → Bool) : Parse Int := do
  literal mark
  return numberOf base (← digitRun isDigit)

/-- Reads a number in base ten with a sign. -/
def decimalInteger : Parse Int := do
  let negative ← sign
  let size : Int := numberOf 10 (← decimalDigits)
  return if negative then -size else size

/-- Reads a whole number of 64 bits. -/
def integerText : Parse Toml := do
  let value ← inBase "0x" 16 isHexDigit <|> inBase "0o" 8 (fun c => '0' ≤ c && c ≤ '7')
    <|> inBase "0b" 2 (fun c => c == '0' || c == '1') <|> decimalInteger
  ensure (Int64.minValue.toInt ≤ value && value ≤ Int64.maxValue.toInt)
  return .integer value

/-! ## 2. Other numbers -/

/-- Whether `digits * 10 ^ exponent` lies beyond the doubles. -/
def isTooLarge (digits : Nat) (exponent : Int) : Bool :=
  let leading := Double.digitCount digits + exponent
  if digits = 0 ∨ leading ≤ 308 then false
  else if 310 ≤ leading then true
  else match exponent with
    | .ofNat up => (Double.nearest (digits * Nat.pow 10 up) 1).isNone
    | .negSucc down => (Double.nearest digits (Nat.pow 10 (down + 1))).isNone

/-- Reads the places behind the point. -/
def places : Parse (List Char) := do
  char '.'
  digitRun Char.isDigit

/-- Reads a decimal exponent. -/
def exponent : Parse Int := do
  let _ ← satisfy fun c => c == 'e' || c == 'E'
  let negative ← sign
  let size : Int := numberOf 10 (← digitRun Char.isDigit)
  return if negative then -size else size

/-- Reads a number with places, an exponent, or both. One too large for a double is refused, unless it is negative, when
it is an infinity. -/
def decimalFloat : Parse Toml := do
  let negative ← sign
  let whole ← decimalDigits
  let fraction ← maybe places
  let power ← maybe exponent
  ensure (fraction.isSome || power.isSome)
  let fraction := fraction.getD []
  ensure (negative || !isTooLarge (numberOf 10 (whole ++ fraction)) (power.getD 0 - fraction.length))
  return .float

/-- Reads an infinity, or what is no number. -/
def namedFloat : Parse Toml := do
  let _ ← sign
  literal "inf" <|> literal "nan"
  return .float

/-- Reads a number that is not whole. -/
def floatText : Parse Toml :=
  decimalFloat <|> namedFloat

/-! ## 3. Dates and times -/

/-- Reads a number of two digits in a range. -/
def twoDigits (low high : Nat) : Parse Nat := do
  let value := numberOf 10 (← exactly 2 Char.isDigit)
  ensure (low ≤ value && value ≤ high)
  return value

/-- The number of days of a month. -/
def daysOf (year month : Nat) : Nat :=
  match month with
  | 2 => if year % 4 = 0 ∧ (year % 100 ≠ 0 ∨ year % 400 = 0) then 29 else 28
  | 4 | 6 | 9 | 11 => 30
  | _ => 31

/-- Reads a date. -/
def date : Parse Unit := do
  let year := numberOf 10 (← exactly 4 Char.isDigit)
  char '-'
  let month ← twoDigits 1 12
  char '-'
  let _ ← twoDigits 1 (daysOf year month)

/-- Reads a time of day; a minute may have a leap second. -/
def time : Parse Unit := do
  let _ ← twoDigits 0 23
  char ':'
  let _ ← twoDigits 0 59
  char ':'
  let _ ← twoDigits 0 60
  let _ ← maybe (do char '.'; takeWhile1 Char.isDigit)

/-- Reads the offset of a time of day. -/
def offset : Parse Unit :=
  (do let _ ← satisfy fun c => c == 'Z' || c == 'z') <|>
    (do
      let _ ← satisfy fun c => c == '+' || c == '-'
      let _ ← twoDigits 0 23
      char ':'
      let _ ← twoDigits 0 59)

/-- Reads a time of day behind a date. -/
def timeOfDate : Parse Unit := do
  let _ ← satisfy fun c => c == 'T' || c == 't' || c == ' '
  time
  let _ ← maybe offset

/-- Reads a date, a time, or both. -/
def momentText : Parse Toml :=
  (do
    date
    let _ ← maybe timeOfDate
    return .moment) <|>
    (do
      time
      return .moment)

/-- Reads a number, a date or a time. -/
def scalar : Parse Toml :=
  momentText <|> floatText <|> integerText

end Toml

end MethodLowering
