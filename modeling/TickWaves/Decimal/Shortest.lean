import TickWaves.Decimal.Binary

/-!
# The fewest digits that stand for a double

All numbers between the midpoints to a double's two neighbours are read as that double;
the midpoints themselves are, if its significand is even.  The shortest decimal in that
interval is found by trying one digit, two digits and so on: of all decimals with so many
digits only the two next to the exact value can be the nearest one in the interval.
-/

namespace TickWaves

/-- The decimal `digits * 10 ^ exponent`. -/
structure Decimal where
  digits : Nat
  exponent : Int
  deriving DecidableEq, Inhabited

namespace Decimal

def width (number : Nat) : Nat := (Nat.toDigits 10 number).length

/-- A value and the interval of the numbers that are read as it, all three as numerators
over one denominator. -/
structure Interval where
  low : Nat
  value : Nat
  high : Nat
  denominator : Nat
  isClosed : Bool
  deriving DecidableEq

namespace Interval

/-- The interval of the double `significand * 2 ^ exponent`.  Below a power of two the
doubles are twice as dense. -/
def ofDouble (significand : Nat) (exponent : Int) : Interval :=
  let isPower :=
    significand == Nat.pow 2 Magnitude.fractionBits && exponent != Magnitude.leastExponent
  let up := Nat.pow 2 exponent.toNat
  { low := (4 * significand - if isPower then 1 else 2) * up
    value := 4 * significand * up
    high := (4 * significand + 2) * up
    denominator := 4 * Nat.pow 2 (-exponent).toNat
    isClosed := significand % 2 == 0 }

def scaled (interval : Interval) (power : Int) : Interval :=
  let up := Nat.pow 10 power.toNat
  { interval with
    low := interval.low * up
    value := interval.value * up
    high := interval.high * up
    denominator := interval.denominator * Nat.pow 10 (-power).toNat }

def holds (interval : Interval) (number : Nat) : Bool :=
  let numerator := number * interval.denominator
  if interval.isClosed then interval.low ≤ numerator && numerator ≤ interval.high
  else interval.low < numerator && numerator < interval.high

/-- The power of ten of the value's first digit. -/
def leadingPower (interval : Interval) : Int :=
  if interval.denominator ≤ interval.value then
    (width (interval.value / interval.denominator) : Int) - 1
  else
    let places := width (interval.denominator / interval.value) - 1
    if interval.value * Nat.pow 10 places = interval.denominator then -(places : Int)
    else -(places + 1 : Int)

/-- The whole number in the interval that is nearest to the value, if there is one; of
two equally near the larger. -/
def nearest? (interval : Interval) : Option Nat :=
  let below := interval.value / interval.denominator
  let above := below + 1
  let isUpper :=
    above * interval.denominator - interval.value
      ≤ interval.value - below * interval.denominator
  match interval.holds below, interval.holds above with
  | true, true => some (if isUpper then above else below)
  | true, false => some below
  | false, true => some above
  | false, false => none

end Interval

def trimmed (decimal : Decimal) : Decimal :=
  let zeros := ((Nat.toDigits 10 decimal.digits).reverse.takeWhile (· == '0')).length
  ⟨decimal.digits / Nat.pow 10 zeros, decimal.exponent + zeros⟩

/-- The largest number of digits that a double can need. -/
def maxDigits : Nat := 17

/-- The shortest decimal that is read as the double `significand * 2 ^ exponent`, which
must not be zero. -/
def shortest (significand : Nat) (exponent : Int) : Decimal :=
  let interval := Interval.ofDouble significand exponent
  let leading := interval.leadingPower
  let found := (List.range maxDigits).findSome? fun (count : Nat) =>
    let power := leading - count
    (interval.scaled (-power)).nearest?.map fun digits => (⟨digits, power⟩ : Decimal)
  trimmed (found.getD ⟨0, 0⟩)

end Decimal

end TickWaves
