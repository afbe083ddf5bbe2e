import TickWaves.Log.Pattern.Mode
import TickWaves.Text.Hex

/-!
# Escapes in patterns

A backslash gives the characters behind it another meaning.  It may stand in front of all
characters of ASCII that are neither letters nor digits, which then stand for themselves,
and in front of some letters.
-/

namespace TickWaves.Pattern

/-- A part of a pattern that can stand inside and outside of a class. -/
inductive Atom
  | character (char : Char)
  /-- A class of characters. -/
  | named
  /-- A place between characters. -/
  | position
  deriving DecidableEq, Inhabited

/-- Takes so many characters off the text, and what may stand between them. -/
def spaced? (mode : Mode) : Nat → List Char → Option (List Char × List Char)
  | 0, text => some ([], text)
  | _ + 1, [] => none
  | count + 1, char :: rest =>
      (spaced? mode count (mode.skip rest)).map fun (chars, rest) => (char :: chars, rest)

/-- Takes a character that is given by so many hexadecimal digits off the text. -/
def byCode? (mode : Mode) (width : Nat) (text : List Char) :
    Option (Char × List Char) := do
  let (digits, rest) ← spaced? mode width (mode.skip text)
  let code ← Hex.number? digits
  if code.isValidChar then some (Char.ofNat code, rest) else none

def control? : Char → Option Char
  | 'a' => some '\x07'
  | 't' => some '\t'
  | 'n' => some '\n'
  | 'v' => some '\x0b'
  | 'f' => some '\x0c'
  | 'r' => some '\r'
  | _ => none

/-- What a backslash makes of the character behind it. -/
def escaped? (mode : Mode) (char : Char) : Option Atom :=
  match control? char with
  | some control => some (.character control)
  | none =>
      if ['d', 's', 'w'].contains char then if mode.isUnicode then none else some .named
      else if ['b', 'B', '<', '>'].contains char then
        if mode.isUnicode then none else some .position
      else if ['A', 'z'].contains char then some .position
      else if decide (char.toNat < 128) && !char.isAlphanum then some (.character char)
      else none

/-- Takes what stands behind a backslash off the text.  A character that is given by two
digits is a byte under the flag `-u`. -/
def escape? (mode : Mode) : List Char → Option (Atom × List Char)
  | 'x' :: rest => do
      let (char, rest) ← byCode? mode 2 rest
      if mode.isUnicode || decide (char.toNat < 128) then some (.character char, rest) else none
  | 'u' :: rest => (byCode? mode 4 rest).map fun (char, rest) => (.character char, rest)
  | 'U' :: rest => (byCode? mode 8 rest).map fun (char, rest) => (.character char, rest)
  | char :: rest => (escaped? mode char).map fun atom => (atom, rest)
  | [] => none

def atom? (mode : Mode) : List Char → Option (Atom × List Char)
  | '\\' :: rest => escape? mode rest
  | char :: rest => some (.character char, rest)
  | [] => none

end TickWaves.Pattern
