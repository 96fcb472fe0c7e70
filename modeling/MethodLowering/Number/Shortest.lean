import MethodLowering.Number.Double

/-!
# The shortest decimal of a double

Among the decimals that round to a double, the one with the fewest digits is written, and of those the nearest.

* `Decimal` -- a whole number of units of a power of ten;
* `Double.roundsTo` -- the test that a decimal lies in the interval of reals that round to a double;
* `Double.shortest` -- the shortest decimal of a finite double other than zero;
* `DecimalFormat` -- where positional notation ends and what an exponent looks like; `Double.render` writes a finite
  double in it.
-/

namespace MethodLowering

/-- The decimal `digits * 10 ^ exponent`. -/
structure Decimal where
  digits : Nat
  exponent : Int
  deriving DecidableEq, Repr

namespace Double

/-! ## 1. The interval of a double -/

/-- The ends of the interval of reals that round to a magnitude, in quarters of its last place. Below a power of two the
gap to the next double is half as wide. -/
def interval (x : Double) : Nat × Nat :=
  let m := x.coefficient
  (if m = Nat.pow 2 52 ∧ 1 < x.exponentField then 4 * m - 1 else 4 * m - 2, 4 * m + 2)

/-- A decimal as a quotient, in quarters of the last place of a double. -/
def quarters (x : Double) (decimal : Decimal) : Nat × Nat :=
  let (num, den) := match decimal.exponent with
    | .ofNat up => (decimal.digits * Nat.pow 10 up, 1)
    | .negSucc down => (decimal.digits, Nat.pow 10 (down + 1))
  (num * Nat.pow 2 1076, den * Nat.pow 2 x.scale)

/-- Whether a decimal rounds to a magnitude; the ends of the interval do when the coefficient is even. -/
def roundsTo (x : Double) (decimal : Decimal) : Bool :=
  let (num, den) := x.quarters decimal
  let (low, high) := x.interval
  if x.coefficient % 2 = 0 then low * den ≤ num && num ≤ high * den
  else low * den < num && num < high * den

/-! ## 2. The shortest decimal -/

/-- The number of decimal digits of a whole number. -/
def digitCount (n : Nat) : Nat :=
  (Nat.toDigits 10 n).length

/-- The exponent of the first digit of a magnitude other than zero. -/
def leadingExponent (x : Double) : Int :=
  let whole := x.units / Nat.pow 2 1074
  if whole = 0 then
    -(digitCount ((Nat.pow 2 1074 - 1) / x.units) : Int)
  else
    (digitCount whole : Int) - 1

/-- The whole part of a magnitude over a power of ten, and twice what is left with the divisor. -/
def split (x : Double) (exponent : Int) : Nat × Nat × Nat :=
  let (num, den) := match exponent with
    | .ofNat up => (x.units, Nat.pow 2 1074 * Nat.pow 10 up)
    | .negSucc down => (x.units * Nat.pow 10 (down + 1), Nat.pow 2 1074)
  (num / den, 2 * (num % den), den)

/-- The decimal with a number of digits that rounds to a magnitude: of its neighbours on that grid the nearer, or the
only one. A tie goes to the even one. -/
def withDigits? (x : Double) (count : Nat) : Option Decimal :=
  let exponent := x.leadingExponent - (count - 1 : Nat)
  let (whole, twice, den) := x.split exponent
  let below : Decimal := ⟨whole, exponent⟩
  let above : Decimal := ⟨whole + 1, exponent⟩
  match x.roundsTo below, x.roundsTo above with
  | true, true => some (if twice < den ∨ twice = den ∧ whole % 2 = 0 then below else above)
  | true, false => some below
  | false, true => some above
  | false, false => none

/-- **The shortest decimal of a magnitude.** Seventeen digits always suffice. -/
def shortest (x : Double) : Decimal :=
  ((List.range 17).findSome? fun count => x.withDigits? (count + 1)).getD ⟨0, 0⟩

end Double

/-! ## 3. The text of a double -/

/-- How a decimal is laid out. -/
structure DecimalFormat where
  /-- Least exponent of a first digit that is written without exponent. -/
  positionalFrom : Int
  /-- Greatest exponent of a first digit that is written without exponent. -/
  positionalTo : Int
  /-- What stands before the exponent. -/
  exponentMark : String
  /-- Whether an exponent that is not negative has a sign. -/
  plusSign : Bool

namespace DecimalFormat

/-- The digits of a decimal without the zeros at their end, and the exponent of the first. -/
def digitsOf (decimal : Decimal) : List Char × Int :=
  let digits := Nat.toDigits 10 decimal.digits
  let kept := (digits.reverse.dropWhile (· = '0')).reverse
  (kept, decimal.exponent + digits.length - 1)

/-- Digits behind a first digit with an exponent of zero or more, with at least one place behind the point. -/
def positional (digits : List Char) (exponent : Nat) : List Char :=
  let whole := digits.take (exponent + 1)
  let places := digits.drop (exponent + 1)
  whole ++ List.replicate (exponent + 1 - whole.length) '0' ++ '.' :: (if places.isEmpty then ['0'] else places)

/-- Digits with a mark and an exponent; no point where there is one digit only. -/
def scientific (format : DecimalFormat) (digits : List Char) (exponent : Int) : List Char :=
  let sign := if exponent < 0 then "-" else if format.plusSign then "+" else ""
  digits.take 1 ++ (if digits.length ≤ 1 then [] else '.' :: digits.drop 1) ++ format.exponentMark.toList
    ++ sign.toList ++ Nat.toDigits 10 exponent.natAbs

/-- The text of a decimal other than zero. -/
def layout (format : DecimalFormat) (decimal : Decimal) : List Char :=
  let (digits, exponent) := digitsOf decimal
  if format.positionalFrom ≤ exponent ∧ exponent ≤ format.positionalTo then
    match exponent with
    | .ofNat up => positional digits up
    | .negSucc zeros => '0' :: '.' :: (List.replicate zeros '0' ++ digits)
  else
    format.scientific digits exponent

end DecimalFormat

/-- The text of a finite double; a zero keeps its sign and one place. -/
def Double.render (format : DecimalFormat) (x : Double) : String :=
  let magnitude := if x.units = 0 then "0.0".toList else format.layout x.shortest
  String.ofList (if x.isNegative then '-' :: magnitude else magnitude)

end MethodLowering
