/-!
# Binary64 numbers

A double is its 64 bits: a sign, eleven bits of exponent and 52 of fraction. The magnitude of a finite one is
`m * 2 ^ q` with a whole `m` and `-1074 ≤ q`. Arithmetic is exact on quotients of naturals, with one rounding at the
end.

* `Double.coefficient`, `Double.scale` -- `m`, and `q` counted from -1074;
* `Double.nearest` -- the double nearest to a quotient, a half going to the even neighbour;
* `Double.ofDecimal` -- the double of a decimal numeral, read in at most three roundings.
-/

namespace MethodLowering

/-- A binary64 number by its bits. -/
structure Double where
  bits : UInt64
  deriving DecidableEq, Repr, Inhabited

namespace Double

/-! ## 1. The fields of a double -/

/-- Whether the sign bit is set. -/
def isNegative (x : Double) : Bool :=
  Nat.pow 2 63 ≤ x.bits.toNat

/-- The exponent field: 0 for the least magnitudes, 2047 for infinities and what is no number. -/
def exponentField (x : Double) : Nat :=
  x.bits.toNat / Nat.pow 2 52 % Nat.pow 2 11

/-- The fraction field. -/
def fractionField (x : Double) : Nat :=
  x.bits.toNat % Nat.pow 2 52

/-- Whether the double is a number other than an infinity. -/
def isFinite (x : Double) : Bool :=
  x.exponentField < 2047

/-- The whole number `m` of a magnitude `m * 2 ^ q`. -/
def coefficient (x : Double) : Nat :=
  if x.exponentField = 0 then x.fractionField else Nat.pow 2 52 + x.fractionField

/-- How far the exponent `q` of a magnitude `m * 2 ^ q` lies above -1074. -/
def scale (x : Double) : Nat :=
  x.exponentField - 1

/-- The numerator of the magnitude of a finite double over `2 ^ 1074`. -/
def units (x : Double) : Nat :=
  x.coefficient * Nat.pow 2 x.scale

/-- The double of a sign and the 63 bits of a magnitude. -/
def ofFields (negative : Bool) (magnitude : Nat) : Double :=
  ⟨UInt64.ofNat ((if negative then Nat.pow 2 63 else 0) + magnitude)⟩

/-- Zero. -/
def zero : Double := ⟨0⟩

/-- The double with the sign chosen. -/
def withSign (negative : Bool) (x : Double) : Double :=
  ofFields negative (x.bits.toNat % Nat.pow 2 63)

/-! ## 2. Rounding -/

/-- The whole number nearest to a quotient; a half goes to the even one. -/
def roundHalfEven (num den : Nat) : Nat :=
  let below := num / den
  let twice := 2 * (num % den)
  if twice < den then below
  else if den < twice then below + 1
  else below + below % 2

/-- The exponent `q` above -1074 at which a quotient over `2 ^ 1074` has a coefficient of 53 bits, or 0 when it has
fewer there. -/
def scaleOf (num den : Nat) : Nat :=
  (num / den).log2 - 52

/-- **The double nearest to `num / den`**, a half going to the one with an even coefficient; nothing when it is beyond
the greatest finite double. -/
def nearest (num den : Nat) : Option Double :=
  let num := num * Nat.pow 2 1074
  let scale := scaleOf num den
  let magnitude := scale * Nat.pow 2 52 + roundHalfEven num (den * Nat.pow 2 scale)
  if magnitude < 2047 * Nat.pow 2 52 then some ⟨UInt64.ofNat magnitude⟩ else none

/-! ## 3. Decimal numerals -/

/-- The double nearest to a power of ten. -/
def powerOfTen (exponent : Nat) : Option Double :=
  nearest (Nat.pow 10 exponent) 1

/-- The product of two magnitudes, rounded. -/
def mul (x y : Double) : Option Double :=
  nearest (x.units * y.units) (Nat.pow 2 1074 * Nat.pow 2 1074)

/-- The quotient of two magnitudes, rounded; the divisor is not zero. -/
def div (x y : Double) : Option Double :=
  nearest x.units y.units

/-- The greatest power of ten that is a finite double. -/
def greatestTen : Nat := 308

/-- A magnitude divided by a power of ten, in steps of the greatest finite one. -/
def shiftDown (x : Double) (exponent : Nat) : Option Double :=
  if exponent ≤ greatestTen then do
    x.div (← powerOfTen exponent)
  else if x.units = 0 then
    some x
  else do
    shiftDown (← x.div (← powerOfTen greatestTen)) (exponent - greatestTen)
termination_by exponent
decreasing_by simp_all [greatestTen]; omega

/-- A magnitude multiplied by a power of ten; nothing when the product is beyond the doubles. -/
def shiftUp (x : Double) (exponent : Nat) : Option Double :=
  if exponent ≤ greatestTen then do
    x.mul (← powerOfTen exponent)
  else if x.units = 0 then
    some x
  else
    none

/-- **The double of `significand * 10 ^ exponent`.** The significand is rounded to a double first, which is then
multiplied or divided by the double of the power of ten, so the result may miss the nearest double by a unit. Nothing
when the result is beyond the doubles. -/
def ofDecimal (negative : Bool) (significand : Nat) (exponent : Int) : Option Double := do
  let x ← nearest significand 1
  let shifted ← match exponent with
    | .ofNat up => x.shiftUp up
    | .negSucc down => x.shiftDown (down + 1)
  return shifted.withSign negative

end Double

end MethodLowering
