import TickWaves.Decimal.Layout
import TickWaves.Time.Duration

/-!
# Tick rates

A rate of ticks per second gives every tick a budget of time: the quotient of one and
the rate, as a double, rounded to the nearest nanosecond.  A rate that is no positive
number has no budget, and neither has one so low that the budget would be no duration.
-/

namespace TickWaves

/-- A quotient rounded to the nearest whole number, and from the middle to the even
neighbour. -/
def roundedQuotient (numerator denominator : Nat) : Nat :=
  let below := numerator / denominator
  let twice := 2 * (numerator % denominator)
  if twice < denominator then below
  else if denominator < twice then below + 1
  else below + below % 2

/-- The duration nearest to a magnitude in seconds. -/
def Duration.ofMagnitude? : Magnitude → Option Duration
  | .nan => none
  | .infinite => none
  | .finite significand exponent =>
      Duration.ofNanoseconds? <|
        roundedQuotient (significand * Nat.pow 2 exponent.toNat * Duration.perSecond)
          (Nat.pow 2 (-exponent).toNat)

/-- Why a rate has no budget. -/
inductive RateError
  /-- The rate is no positive number. -/
  | notPositive (rate : Float)
  /-- The budget is longer than any duration. -/
  | tooLow (rate : Float)
  deriving Inhabited

def RateError.message : RateError → String
  | .notPositive rate =>
      "tick rate must be a positive number, got " ++ FloatLayout.message.text rate
  | .tooLow rate => "tick rate " ++ FloatLayout.message.text rate ++ " is too low"

def isPositiveRate (rate : Float) : Bool := rate.isFinite && 0.0 < rate

def budgetOf (rate : Float) : Except RateError Duration :=
  if isPositiveRate rate then
    match Duration.ofMagnitude? (Magnitude.ofFloat (1.0 / rate)) with
    | some budget => .ok budget
    | none => .error (.tooLow rate)
  else .error (.notPositive rate)

end TickWaves
