/-!
# How patterns are read

A pattern is a regular expression.  Its flags tell how the parts behind them are read.
What depends on tables of characters is known for ASCII only: upper and lower case, word
boundaries, and the classes of digits, blanks and word characters.  So these need the flag
`-u`, under which a pattern is about bytes; in exchange, nothing that matches a byte beyond
ASCII is allowed there.
-/

namespace TickWaves

/-- Whether a character is white space in any script: it has the Unicode property
White_Space. -/
def Text.isBlank (char : Char) : Bool :=
  let code := char.toNat
  (decide (0x9 ≤ code) && decide (code ≤ 0xD))
    || (decide (0x2000 ≤ code) && decide (code ≤ 0x200A))
    || [0x20, 0x85, 0xA0, 0x1680, 0x2028, 0x2029, 0x202F, 0x205F, 0x3000].contains code

namespace Pattern

/-- How a part of a pattern is read. -/
structure Mode where
  ignoresCase : Bool
  /-- Whether it is about characters, and not about bytes. -/
  isUnicode : Bool
  skipsBlanks : Bool
  deriving DecidableEq, Inhabited

/-- Skips blanks and comments; whether the text starts inside of a comment is told first.
A comment begins with a number sign and ends with its line. -/
def skipBlanks : Bool → List Char → List Char
  | _, [] => []
  | true, char :: rest => skipBlanks (char != '\n') rest
  | false, char :: rest =>
      if Text.isBlank char then skipBlanks false rest
      else if char == '#' then skipBlanks true rest
      else char :: rest

theorem length_skipBlanks_le (isComment : Bool) (text : List Char) :
    (skipBlanks isComment text).length ≤ text.length := by
  induction text generalizing isComment with
  | nil => cases isComment <;> exact Nat.le_refl _
  | cons char rest ih =>
      have hrest (isComment : Bool) := Nat.le_succ_of_le (ih isComment)
      cases isComment with
      | true => exact hrest _
      | false =>
          unfold skipBlanks
          split
          · exact hrest false
          · split
            · exact hrest true
            · exact Nat.le_refl _

/-- The first character behind blanks and the sign of a comment, not behind the comment;
whether there has been such a sign is told first. -/
def firstSign : Bool → List Char → Option Char
  | _, [] => none
  | isComment, char :: rest =>
      if Text.isBlank char then firstSign isComment rest
      else if char == '#' && !isComment then firstSign true rest
      else some char

namespace Mode

def plain : Mode := ⟨false, true, false⟩

/-- Whether characters may be given: which letters are the same is known for ASCII only. -/
def allowsCharacters (mode : Mode) : Bool := !(mode.ignoresCase && mode.isUnicode)

def allowsNegation (mode : Mode) (isNegated : Bool) : Bool := mode.isUnicode || !isNegated

def allowsMember (mode : Mode) (char : Char) : Bool :=
  mode.allowsCharacters && (mode.isUnicode || decide (char.toNat < 128))

def withFlags (mode : Mode) (on off : List Char) : Mode where
  ignoresCase := on.contains 'i' || (mode.ignoresCase && !off.contains 'i')
  isUnicode := on.contains 'u' || (mode.isUnicode && !off.contains 'u')
  skipsBlanks := on.contains 'x' || (mode.skipsBlanks && !off.contains 'x')

/-- Skips what may stand between two signs. -/
def skip (mode : Mode) (text : List Char) : List Char :=
  if mode.skipsBlanks then skipBlanks false text else text

theorem length_skip_le (mode : Mode) (text : List Char) :
    (mode.skip text).length ≤ text.length := by
  unfold skip
  split
  · exact length_skipBlanks_le false text
  · exact Nat.le_refl _

/-- The sign that a text goes on with, as far as a hyphen in front of it minds. -/
def nextSign? (mode : Mode) (text : List Char) : Option Char :=
  if mode.skipsBlanks then firstSign false text else text.head?

end Mode

end Pattern

end TickWaves
