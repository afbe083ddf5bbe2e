import TickWaves.Decimal.Reading
import TickWaves.Json.Scan

/-!
# Numbers in JSON text

A number is scanned to tell whether it is a natural number that fits in 64 bits.  Every
other number is still checked: it must follow the grammar, and a number beyond the range
of a double is malformed.
-/

namespace TickWaves.Json

def leadingDigits (text : List Char) : List Char := text.takeWhile Char.isDigit

def skipDigits (text : List Char) : List Char := text.dropWhile Char.isDigit

theorem length_skipDigits_le (text : List Char) :
    (skipDigits text).length ≤ text.length :=
  (List.dropWhile_suffix Char.isDigit).length_le

def startsWithDigit (text : List Char) : Bool := text.head?.any Char.isDigit

/-- The sign of an exponent, `true` for a minus, and the text behind it. -/
def exponentSign (text : List Char) : Bool × List Char :=
  match text with
  | '+' :: rest => (false, rest)
  | '-' :: rest => (true, rest)
  | text => (false, text)

theorem length_exponentSign_le (text : List Char) :
    (exponentSign text).2.length ≤ text.length := by
  unfold exponentSign
  split <;> simp

/-- A number that is no natural number of 64 bits, unless it is out of range. -/
def otherNumber (decimal : Decimal) (rest : List Char) :
    Except Fault (Option Nat × List Char) :=
  if decimal.isInfinite then .error .malformed else .ok (none, rest)

def exponent (decimal : Decimal) (text : List Char) :
    Except Fault (Option Nat × List Char) :=
  let (isNegative, text) := exponentSign text
  if text.isEmpty then .error .endOfText
  else if !startsWithDigit text then .error .malformed
  else
    let places : Int := Decimal.ofDigits (leadingDigits text)
    let shift := if isNegative then -places else places
    otherNumber { decimal with exponent := decimal.exponent + shift } (skipDigits text)

def startsExponent (text : List Char) : Bool :=
  text.head?.any fun char => char == 'e' || char == 'E'

/-- What may follow the digits before the point. -/
def fraction (isNegative : Bool) (digits : List Char) (text : List Char) :
    Except Fault (Option Nat × List Char) :=
  match text with
  | '.' :: rest =>
      if rest.isEmpty then .error .endOfText
      else if !startsWithDigit rest then .error .malformed
      else
        let decimals := leadingDigits rest
        let decimal : Decimal := ⟨Decimal.ofDigits (digits ++ decimals), -decimals.length⟩
        let rest := skipDigits rest
        if startsExponent rest then exponent decimal (rest.drop 1)
        else otherNumber decimal rest
  | text =>
      let number := Decimal.ofDigits digits
      if startsExponent text then exponent ⟨number, 0⟩ (text.drop 1)
      else if isNegative || UInt64.size ≤ number then otherNumber ⟨number, 0⟩ text
      else .ok (some number, text)

/-- Takes a number off the text, whose minus sign has been taken before.  The result is
the number if it is a natural number of 64 bits without sign, point and exponent. -/
def number (isNegative : Bool) (text : List Char) :
    Except Fault (Option Nat × List Char) :=
  if text.isEmpty then .error .endOfText
  else if !startsWithDigit text then .error .malformed
  else if text.head? == some '0' && startsWithDigit (text.drop 1) then .error .malformed
  else fraction isNegative (leadingDigits text) (skipDigits text)

theorem length_otherNumber_le {decimal : Decimal} {text rest : List Char}
    {value : Option Nat} (hnumber : otherNumber decimal text = .ok (value, rest)) :
    rest.length ≤ text.length := by
  unfold otherNumber at hnumber
  split at hnumber
  · simp at hnumber
  · simp only [Except.ok.injEq, Prod.mk.injEq] at hnumber
    simp [hnumber.2]

theorem length_exponent_le {decimal : Decimal} {text rest : List Char}
    {value : Option Nat} (hnumber : exponent decimal text = .ok (value, rest)) :
    rest.length ≤ text.length := by
  unfold exponent at hnumber
  have hsign := length_exponentSign_le text
  generalize exponentSign text = signed at hnumber hsign
  obtain ⟨isNegative, after⟩ := signed
  simp only at hnumber hsign
  split at hnumber
  · simp at hnumber
  split at hnumber
  · simp at hnumber
  have hrest := length_otherNumber_le hnumber
  have hdigits := length_skipDigits_le after
  omega

theorem length_fraction_le {isNegative : Bool} {digits : List Char}
    {text rest : List Char} {value : Option Nat}
    (hnumber : fraction isNegative digits text = .ok (value, rest)) :
    rest.length ≤ text.length := by
  unfold fraction at hnumber
  split at hnumber
  · rename_i after
    have hdigits := length_skipDigits_le after
    split at hnumber
    · simp at hnumber
    split at hnumber
    · simp at hnumber
    simp only at hnumber
    split at hnumber
    · have hrest := length_exponent_le hnumber
      simp only [List.length_drop] at hrest
      simp only [List.length_cons]
      omega
    · have hrest := length_otherNumber_le hnumber
      simp only [List.length_cons]
      omega
  · split at hnumber
    · have hrest := length_exponent_le hnumber
      simp only [List.length_drop] at hrest
      omega
    simp only at hnumber
    split at hnumber
    · exact length_otherNumber_le hnumber
    · simp only [Except.ok.injEq, Prod.mk.injEq] at hnumber
      simp [hnumber.2]

theorem length_number_le {isNegative : Bool} {text rest : List Char}
    {value : Option Nat} (hnumber : number isNegative text = .ok (value, rest)) :
    rest.length ≤ text.length := by
  unfold number at hnumber
  split at hnumber
  · simp at hnumber
  split at hnumber
  · simp at hnumber
  split at hnumber
  · simp at hnumber
  exact Nat.le_trans (length_fraction_le hnumber) (length_skipDigits_le text)

end TickWaves.Json
