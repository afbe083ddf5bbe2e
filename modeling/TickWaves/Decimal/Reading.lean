import TickWaves.Decimal.Shortest

/-!
# Numbers from text

A natural number is a run of digits behind an optional plus sign.  A double is a decimal
with an optional sign, point and exponent, rounded to the nearest double, or one of the
words for infinity and for no number, in any case of letters.
-/

namespace TickWaves

namespace Decimal

def ofDigits (digits : List Char) : Nat :=
  digits.foldl (fun number char => number * 10 + (char.toNat - '0'.toNat)) 0

/-- Splits a run of digits off a text. -/
def digitRun (chars : List Char) : List Char × List Char :=
  (chars.takeWhile Char.isDigit, chars.dropWhile Char.isDigit)

/-- The natural number that a text is, which may have a plus sign. -/
def natural? (chars : List Char) : Option Nat :=
  let digits :=
    match chars with
    | '+' :: rest => rest
    | _ => chars
  if digits.isEmpty || !digits.all Char.isDigit then none else some (ofDigits digits)

def integer? : List Char → Option Int
  | '-' :: '+' :: _ => none
  | '-' :: rest => (natural? rest).map fun number => -(number : Int)
  | chars => (natural? chars).map Int.ofNat

/-- The exponent at the end of a decimal; there may be none. -/
def exponent? : List Char → Option Int
  | [] => some 0
  | mark :: rest => if mark.toLower = 'e' then integer? rest else none

/-- The decimal without sign that a text is.  There is a digit before the point or
behind it. -/
def unsigned? (chars : List Char) : Option Decimal :=
  let (whole, rest) := digitRun chars
  let (part, rest) :=
    match rest with
    | '.' :: rest => digitRun rest
    | _ => ([], rest)
  if whole.isEmpty && part.isEmpty then none
  else (exponent? rest).map fun exponent =>
    ⟨ofDigits (whole ++ part), exponent - part.length⟩

/-- No double other than zero is as small as ten to this power. -/
def leastPower : Int := -330

/-- Every double other than infinity is below ten to this power. -/
def greatestPower : Int := 310

/-- The double nearest to a decimal. -/
def toFloat (decimal : Decimal) : Float :=
  let power := decimal.exponent + width decimal.digits
  if decimal.digits = 0 || power < leastPower then 0.0
  else if greatestPower < power then 1.0 / 0.0
  else Float.ofScientific decimal.digits (decimal.exponent < 0) decimal.exponent.natAbs

/-- The number halfway between the largest double and the next power of two.  What is
below is nearest to a double, and all else is read as infinity. -/
def infinityStart : Nat := Nat.pow 2 1024 - Nat.pow 2 970

/-- Ten to this power is below the start of infinity. -/
def safePower : Int := 308

def isInfinite (decimal : Decimal) : Bool :=
  let power := decimal.exponent + width decimal.digits
  decimal.digits != 0 && decide (safePower < power)
    && (decide (greatestPower < power)
      || if 0 ≤ decimal.exponent then
        decide (infinityStart ≤ decimal.digits * Nat.pow 10 decimal.exponent.toNat)
      else decide (infinityStart * Nat.pow 10 decimal.exponent.natAbs ≤ decimal.digits))

/-- The double without sign that a text is: a decimal or a word. -/
def magnitude? (chars : List Char) : Option Float :=
  let word := String.ofList (chars.map Char.toLower)
  if word = "inf" || word = "infinity" then some (1.0 / 0.0)
  else if word = "nan" then some (0.0 / 0.0)
  else (unsigned? chars).map toFloat

def float? (text : String) : Option Float :=
  match text.toList with
  | '-' :: rest => (magnitude? rest).map fun value => -value
  | '+' :: rest => magnitude? rest
  | chars => magnitude? chars

end Decimal

end TickWaves
