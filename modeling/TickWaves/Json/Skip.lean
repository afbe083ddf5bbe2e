import TickWaves.Json.Number

/-!
# Skipping a JSON value

A field that nobody asked for is skipped.  Its value must follow the grammar, but it may
be nested to any depth: the open brackets are kept on a stack.  Escapes inside skipped
text need not make up characters, and a number that breaks off is malformed.
-/

namespace TickWaves.Json

/-- Skips text up to the closing quote. -/
def skipText (text : List Char) : Except Fault (List Char) :=
  match text with
  | [] => .error .endOfText
  | '"' :: rest => .ok rest
  | ['\\'] => .error .endOfText
  | '\\' :: 'u' :: rest =>
      match hquad : hexQuad rest with
      | .error fault => .error fault
      | .ok (_, after) =>
          have : after.length ≤ rest.length := length_hexQuad_le hquad
          skipText after
  | '\\' :: char :: rest =>
      if (simpleEscape? char).isSome then skipText rest else .error .malformed
  | char :: rest => if char < ' ' then .error .malformed else skipText rest
termination_by text.length

theorem length_skipText_le {text rest : List Char}
    (hskip : skipText text = .ok rest) : rest.length ≤ text.length := by
  fun_induction skipText text with
  | case1 => simp at hskip
  | case2 =>
      simp only [Except.ok.injEq] at hskip
      simp [hskip]
  | case3 => simp at hskip
  | case4 => simp at hskip
  | case5 =>
      rename_i ih
      have := ih hskip
      simp only [List.length_cons]
      omega
  | case6 =>
      rename_i ih
      have := ih hskip
      simp only [List.length_cons]
      omega
  | case7 => simp at hskip
  | case8 => simp at hskip
  | case9 =>
      rename_i ih
      exact Nat.le_succ_of_le (ih hskip)

def skipExponent (text : List Char) : Except Fault (List Char) :=
  if startsExponent text then
    let rest := (exponentSign (text.drop 1)).2
    if startsWithDigit rest then .ok (skipDigits rest) else .error .malformed
  else .ok text

theorem length_skipExponent_le {text rest : List Char}
    (hskip : skipExponent text = .ok rest) : rest.length ≤ text.length := by
  unfold skipExponent at hskip
  split at hskip
  · have hsign := length_exponentSign_le (text.drop 1)
    have hdigits := length_skipDigits_le (exponentSign (text.drop 1)).2
    simp only [List.length_drop] at hsign
    simp only at hskip
    split at hskip
    · simp only [Except.ok.injEq] at hskip
      subst hskip
      omega
    · simp at hskip
  · simp only [Except.ok.injEq] at hskip
    simp [hskip]

def skipFraction (text : List Char) : Except Fault (List Char) :=
  match text with
  | '.' :: rest =>
      if startsWithDigit rest then skipExponent (skipDigits rest) else .error .malformed
  | text => skipExponent text

theorem length_skipFraction_le {text rest : List Char}
    (hskip : skipFraction text = .ok rest) : rest.length ≤ text.length := by
  unfold skipFraction at hskip
  split at hskip
  · rename_i after
    split at hskip
    · have hrest := length_skipExponent_le hskip
      have hdigits := length_skipDigits_le after
      simp only [List.length_cons]
      omega
    · simp at hskip
  · exact length_skipExponent_le hskip

/-- Skips a number whose first digit has been taken. -/
def skipNumber (first : Char) (text : List Char) : Except Fault (List Char) :=
  if first = '0' && startsWithDigit text then .error .malformed
  else skipFraction (skipDigits text)

theorem length_skipNumber_le {first : Char} {text rest : List Char}
    (hskip : skipNumber first text = .ok rest) : rest.length ≤ text.length := by
  unfold skipNumber at hskip
  split at hskip
  · simp at hskip
  · exact Nat.le_trans (length_skipFraction_le hskip) (length_skipDigits_le text)

/-- Skips a number whose minus sign has been taken. -/
def skipNegative (text : List Char) : Except Fault (List Char) :=
  match text with
  | [] => .error .malformed
  | first :: rest => if first.isDigit then skipNumber first rest else .error .malformed

theorem length_skipNegative_le {text rest : List Char}
    (hskip : skipNegative text = .ok rest) : rest.length ≤ text.length := by
  unfold skipNegative at hskip
  split at hskip
  · simp at hskip
  split at hskip
  · exact Nat.le_succ_of_le (length_skipNumber_le hskip)
  · simp at hskip

/-- Skips a value without brackets, whose first character has been taken. -/
def skipScalar (first : Char) (rest : List Char) : Except Fault (List Char) :=
  if first = 'n' then word ['u', 'l', 'l'] rest
  else if first = 't' then word ['r', 'u', 'e'] rest
  else if first = 'f' then word ['a', 'l', 's', 'e'] rest
  else if first = '"' then skipText rest
  else if first = '-' then skipNegative rest
  else if first.isDigit then skipNumber first rest
  else .error .malformed

theorem length_skipScalar_le {first : Char} {text rest : List Char}
    (hskip : skipScalar first text = .ok rest) : rest.length ≤ text.length := by
  unfold skipScalar at hskip
  split at hskip
  · exact length_word_le hskip
  split at hskip
  · exact length_word_le hskip
  split at hskip
  · exact length_word_le hskip
  split at hskip
  · exact length_skipText_le hskip
  split at hskip
  · exact length_skipNegative_le hskip
  split at hskip
  · exact length_skipNumber_le hskip
  · simp at hskip

/-- A bracket that is still open. -/
inductive Bracket
  | square
  | curly
  deriving DecidableEq

def Bracket.closing : Bracket → Char
  | .square => ']'
  | .curly => '\x7d'

/-- What stands next while a value is skipped. -/
inductive Expected
  | value
  /-- The first item of the innermost bracket, or its end. -/
  | firstItem
  /-- A comma, or the end of the innermost bracket. -/
  | separator
  deriving DecidableEq

/-- A position inside a value that is being skipped. -/
structure Position where
  /-- The open brackets, innermost first. -/
  brackets : List Bracket
  expected : Expected
  rest : List Char

/-- Skips the start of a value: a scalar, or a bracket that is now open. -/
def skipStart (brackets : List Bracket) (first : Char) (rest : List Char) :
    Except Fault Position :=
  if first = '[' then .ok ⟨.square :: brackets, .firstItem, rest⟩
  else if first = '\x7b' then .ok ⟨.curly :: brackets, .firstItem, rest⟩
  else
    match skipScalar first rest with
    | .error fault => .error fault
    | .ok after => .ok ⟨brackets, .separator, after⟩

def skipName (brackets : List Bracket) (text : List Char) : Except Fault Position :=
  match skipBlanks text with
  | [] => .error .endOfText
  | '"' :: rest =>
      match skipText rest with
      | .error fault => .error fault
      | .ok after =>
          match skipBlanks after with
          | [] => .error .endOfText
          | ':' :: rest => .ok ⟨brackets, .value, rest⟩
          | _ => .error .malformed
  | _ => .error .malformed

/-- Skips to the next item of the innermost bracket: in a record, behind its name. -/
def skipToItem (bracket : Bracket) (brackets : List Bracket) (text : List Char) :
    Except Fault Position :=
  match bracket with
  | .square => .ok ⟨bracket :: brackets, .value, text⟩
  | .curly => skipName (bracket :: brackets) text

/-- Skips one token of a value, whose first character is given: the position behind it,
with at least one character less ahead. -/
def skipToken (brackets : List Bracket) (expected : Expected) (first : Char)
    (rest : List Char) : Except Fault Position :=
  match brackets, expected with
  | brackets, .value => skipStart brackets first rest
  | [], _ => .error .malformed
  | bracket :: brackets, .firstItem =>
      if first = bracket.closing then .ok ⟨brackets, .separator, rest⟩
      else
        match bracket with
        | .square => skipStart (bracket :: brackets) first rest
        | .curly => skipName (bracket :: brackets) (first :: rest)
  | bracket :: brackets, .separator =>
      if first = bracket.closing then .ok ⟨brackets, .separator, rest⟩
      else if first = ',' then skipToItem bracket brackets rest
      else .error .malformed

theorem length_skipStart_le {brackets : List Bracket} {first : Char}
    {rest : List Char} {position : Position}
    (hskip : skipStart brackets first rest = .ok position) :
    position.rest.length ≤ rest.length := by
  unfold skipStart at hskip
  split at hskip
  · simp only [Except.ok.injEq] at hskip
    subst hskip
    exact Nat.le_refl _
  split at hskip
  · simp only [Except.ok.injEq] at hskip
    subst hskip
    exact Nat.le_refl _
  split at hskip
  · simp at hskip
  · rename_i after hafter
    simp only [Except.ok.injEq] at hskip
    subst hskip
    exact length_skipScalar_le hafter

theorem length_skipName_lt {brackets : List Bracket} {text : List Char}
    {position : Position} (hskip : skipName brackets text = .ok position) :
    position.rest.length < text.length := by
  unfold skipName at hskip
  have htext := length_skipBlanks_le text
  split at hskip
  · simp at hskip
  · rename_i rest hrest
    rw [hrest] at htext
    split at hskip
    · simp at hskip
    · rename_i after hafter
      have hname := length_skipText_le hafter
      have hblanks := length_skipBlanks_le after
      split at hskip
      · simp at hskip
      · rename_i last hlast
        rw [hlast] at hblanks
        simp only [Except.ok.injEq] at hskip
        subst hskip
        simp only [List.length_cons] at htext hblanks ⊢
        omega
      · simp at hskip
  · simp at hskip

theorem length_skipToken_le {brackets : List Bracket} {expected : Expected}
    {first : Char} {rest : List Char} {position : Position}
    (hskip : skipToken brackets expected first rest = .ok position) :
    position.rest.length ≤ rest.length := by
  unfold skipToken at hskip
  split at hskip
  · exact length_skipStart_le hskip
  · simp at hskip
  · split at hskip
    · simp only [Except.ok.injEq] at hskip
      subst hskip
      exact Nat.le_refl _
    split at hskip
    · exact length_skipStart_le hskip
    · have := length_skipName_lt hskip
      simp only [List.length_cons] at this
      omega
  · split at hskip
    · simp only [Except.ok.injEq] at hskip
      subst hskip
      exact Nat.le_refl _
    split at hskip
    · unfold skipToItem at hskip
      split at hskip
      · simp only [Except.ok.injEq] at hskip
        subst hskip
        exact Nat.le_refl _
      · exact Nat.le_of_lt (length_skipName_lt hskip)
    · simp at hskip

/-- Skips token by token until no bracket is open behind a complete value. -/
def skipFrom (brackets : List Bracket) (expected : Expected) (text : List Char) :
    Except Fault (List Char) :=
  if brackets.isEmpty && expected == .separator then .ok text
  else
    match hblanks : skipBlanks text with
    | [] => .error .endOfText
    | first :: rest =>
        match htoken : skipToken brackets expected first rest with
        | .error fault => .error fault
        | .ok position =>
            have : position.rest.length < text.length := by
              have htext := length_skipBlanks_le text
              have hrest := length_skipToken_le htoken
              rw [hblanks] at htext
              simp only [List.length_cons] at htext
              omega
            skipFrom position.brackets position.expected position.rest
termination_by text.length

def skipValue (text : List Char) : Except Fault (List Char) :=
  skipFrom [] .value text

theorem length_skipFrom_le {brackets : List Bracket} {expected : Expected}
    {text rest : List Char} (hskip : skipFrom brackets expected text = .ok rest) :
    rest.length ≤ text.length := by
  fun_induction skipFrom brackets expected text with
  | case1 =>
      simp only [Except.ok.injEq] at hskip
      simp [hskip]
  | case2 => simp at hskip
  | case3 => simp at hskip
  | case4 =>
      rename_i hlt ih
      exact Nat.le_of_lt (Nat.lt_of_le_of_lt (ih hskip) hlt)

theorem length_skipValue_le {text rest : List Char}
    (hskip : skipValue text = .ok rest) : rest.length ≤ text.length :=
  length_skipFrom_le hskip

end TickWaves.Json
