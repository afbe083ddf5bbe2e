/-!
# Durations

A duration is a number of nanoseconds whose whole seconds fit in 64 bits.  Sums beyond
that do not exist, which the functions here say by `none`.
-/

namespace TickWaves

/-- A length of time in nanoseconds. -/
structure Duration where
  nanoseconds : Nat
  deriving DecidableEq, Inhabited

namespace Duration

def perSecond : Nat := 1000000000

/-- What no duration reaches: `2^64` seconds. -/
def limit : Nat := UInt64.size * perSecond

def zero : Duration := ⟨0⟩

def ofNanoseconds? (nanoseconds : Nat) : Option Duration :=
  if nanoseconds < limit then some ⟨nanoseconds⟩ else none

def ofParts? (seconds nanoseconds : Nat) : Option Duration :=
  ofNanoseconds? (seconds * perSecond + nanoseconds)

def seconds (duration : Duration) : Nat := duration.nanoseconds / perSecond

/-- The nanoseconds behind the whole seconds. -/
def subseconds (duration : Duration) : Nat := duration.nanoseconds % perSecond

/-- The duration as a double: the seconds and the nanoseconds are rounded, and so are
their quotient and sum. -/
def toFloat (duration : Duration) : Float :=
  Float.ofNat duration.seconds + Float.ofNat duration.subseconds / Float.ofNat perSecond

/-- The sum of some durations, if it is below the limit. -/
def sum? (durations : List Duration) : Option Duration :=
  ofNanoseconds? (durations.foldr (fun duration total => duration.nanoseconds + total) 0)

/-- The duration divided by a number, rounded down. -/
def dividedBy (duration : Duration) (divisor : Nat) : Duration :=
  ⟨duration.nanoseconds / divisor⟩

end Duration

end TickWaves
