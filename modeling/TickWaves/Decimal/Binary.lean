/-!
# Doubles as exact numbers

A double is a sign and a magnitude: a natural number times a power of two, infinity, or
no number.  Everything that must be exact about a double is computed from these parts.
-/

namespace TickWaves

inductive Magnitude
  | nan
  | infinite
  /-- The number `significand * 2 ^ exponent`. -/
  | finite (significand : Nat) (exponent : Int)
  deriving DecidableEq, Inhabited

namespace Magnitude

def fractionBits : Nat := 52

/-- The number of scales: all numbers in eleven bits. -/
def scales : Nat := 2048

/-- The exponent of the last bit of the smallest doubles. -/
def leastExponent : Int := -1074

def ofBits (bits : UInt64) : Magnitude :=
  let fraction : Nat := bits.toNat % Nat.pow 2 fractionBits
  let scale : Nat := bits.toNat / Nat.pow 2 fractionBits % scales
  if scale = scales - 1 then if fraction = 0 then infinite else nan
  else if scale = 0 then finite fraction leastExponent
  else finite (Nat.pow 2 fractionBits + fraction) (leastExponent + scale - 1)

def ofFloat (value : Float) : Magnitude := ofBits value.toBits

end Magnitude

def hasSign (value : Float) : Bool := value.toBits.toNat / Nat.pow 2 63 = 1

end TickWaves
