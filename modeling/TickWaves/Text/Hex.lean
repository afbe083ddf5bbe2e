/-!
# Hexadecimal text

A 64-bit word is always shown by its sixteen digits, so that all identifiers have one
width.  Digits are read in either case.
-/

namespace TickWaves.Hex

/-- The lowest `width` hexadecimal digits of a number, highest first. -/
def digits (width number : Nat) : List Char :=
  (List.range width).map fun place =>
    Nat.digitChar (number / Nat.pow 16 (width - 1 - place) % 16)

/-- The sixteen lower-case digits of a word. -/
def ofWord (word : UInt64) : String :=
  String.ofList (digits 16 word.toNat)

/-- The word with its mark, as identifiers are shown. -/
def marked (word : UInt64) : String :=
  "0x" ++ ofWord word

def value? (char : Char) : Option Nat :=
  if '0' ≤ char ∧ char ≤ '9' then some (char.toNat - '0'.toNat)
  else if 'a' ≤ char ∧ char ≤ 'f' then some (char.toNat - 'a'.toNat + 10)
  else if 'A' ≤ char ∧ char ≤ 'F' then some (char.toNat - 'A'.toNat + 10)
  else none

def number? (digits : List Char) : Option Nat :=
  (digits.mapM value?).map fun values =>
    values.foldl (fun number value => number * 16 + value) 0

@[simp]
theorem length_digits (width number : Nat) : (digits width number).length = width := by
  simp [digits]

end TickWaves.Hex
