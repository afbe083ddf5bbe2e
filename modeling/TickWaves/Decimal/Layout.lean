import TickWaves.Decimal.Shortest

/-!
# Doubles as text

A double is written with the fewest digits that stand for it.  A layout decides which
numbers are written with an exponent and whether a whole number keeps a point.
-/

namespace TickWaves

structure FloatLayout where
  /-- Numbers whose first digit is at a lower power of ten have an exponent. -/
  leastPlain? : Option Int
  /-- Numbers whose first digit is at this power of ten or a higher one have an
  exponent. -/
  leastLarge? : Option Int
  /-- Whether a whole number ends in a point and a zero. -/
  keepsPoint : Bool
  deriving DecidableEq

namespace FloatLayout

/-- The layout of messages: no exponent, and no point in whole numbers. -/
def message : FloatLayout := ⟨none, none, false⟩

/-- The layout of log fields: an exponent below `1e-4` and from `1e16` on, and always a
point or an exponent. -/
def field : FloatLayout := ⟨some (-4), some 16, true⟩

/-- Whether numbers whose first digit is at a power of ten are written without an
exponent. -/
def isPlain (layout : FloatLayout) (leading : Int) : Bool :=
  layout.leastPlain?.all (fun least => decide (least ≤ leading))
    && layout.leastLarge?.all (fun least => decide (leading < least))

def plainText (layout : FloatLayout) (decimal : Decimal) : String :=
  let digits := Nat.toDigits 10 decimal.digits
  let places := (-decimal.exponent).toNat
  if places = 0 then
    String.ofList (digits ++ List.replicate decimal.exponent.toNat '0')
      ++ (if layout.keepsPoint then ".0" else "")
  else if places < digits.length then
    String.ofList (digits.take (digits.length - places)) ++ "."
      ++ String.ofList (digits.drop (digits.length - places))
  else
    "0." ++ String.ofList (List.replicate (places - digits.length) '0' ++ digits)

/-- One digit before the point, and the exponent. -/
def exponentText (decimal : Decimal) : String :=
  let digits := Nat.toDigits 10 decimal.digits
  let leading := decimal.exponent + (digits.length - 1 : Nat)
  String.ofList (digits.take 1)
    ++ (if digits.length = 1 then "" else "." ++ String.ofList (digits.drop 1))
    ++ "e" ++ toString leading

def decimalText (layout : FloatLayout) (decimal : Decimal) : String :=
  if layout.isPlain (decimal.exponent + (Decimal.width decimal.digits - 1 : Nat)) then
    layout.plainText decimal
  else exponentText decimal

/-- A double in the layout.  No number has no sign. -/
def text (layout : FloatLayout) (value : Float) : String :=
  let sign := if hasSign value then "-" else ""
  match Magnitude.ofFloat value with
  | .nan => "NaN"
  | .infinite => sign ++ "inf"
  | .finite 0 _ => sign ++ layout.plainText ⟨0, 0⟩
  | .finite significand exponent =>
      sign ++ layout.decimalText (Decimal.shortest significand exponent)

end FloatLayout

end TickWaves
