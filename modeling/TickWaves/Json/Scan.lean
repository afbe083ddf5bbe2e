import TickWaves.Text.Bytes
import TickWaves.Text.Hex

/-!
# Scanning JSON text

The tokens of JSON text: blanks, words, quoted text and numbers.  A scan takes its token
off the front of the text and returns what follows, which is never longer than what was
given.  Three faults are told apart: the text ends too early, it is no JSON, or it is
JSON of another shape than the one asked for.
-/

namespace TickWaves.Json

/-- Why a text could not be read. -/
inductive Fault
  /-- The text ends before the value is complete. -/
  | endOfText
  /-- The text breaks the grammar of JSON. -/
  | malformed
  /-- The text is JSON, of a shape that was not asked for. -/
  | mismatch
  deriving DecidableEq, Inhabited

/-- Blank, tabulator and the two line ends may stand between tokens. -/
def isBlank (char : Char) : Bool :=
  char == ' ' || char == '\n' || char == '\t' || char == '\r'

def skipBlanks (text : List Char) : List Char :=
  text.dropWhile isBlank

theorem length_skipBlanks_le (text : List Char) :
    (skipBlanks text).length ≤ text.length :=
  (List.dropWhile_suffix isBlank).length_le

/-- Takes a fixed word off the text. -/
def word : (expected text : List Char) → Except Fault (List Char)
  | [], text => .ok text
  | _ :: _, [] => .error .endOfText
  | wanted :: expected, char :: text =>
      if char = wanted then word expected text else .error .malformed

theorem length_word_le {expected text rest : List Char}
    (hword : word expected text = .ok rest) : rest.length ≤ text.length := by
  induction expected generalizing text with
  | nil =>
      simp only [word, Except.ok.injEq] at hword
      simp [hword]
  | cons wanted expected ih =>
      cases text with
      | nil => simp [word] at hword
      | cons char text =>
          by_cases hchar : char = wanted
          · simp only [word, if_pos hchar] at hword
            exact Nat.le_succ_of_le (ih hword)
          · simp [word, hchar] at hword

/-! ## Quoted text -/

/-- Why four hexadecimal digits could not be taken: fewer than four bytes are left, or
one of the next four is no digit. -/
def hexFault (text : List Char) : Fault :=
  if Text.byteLength text < 4 then .endOfText else .malformed

def hexQuad (text : List Char) : Except Fault (Nat × List Char) :=
  match text with
  | a :: b :: c :: d :: rest =>
      match Hex.value? a, Hex.value? b, Hex.value? c, Hex.value? d with
      | some a, some b, some c, some d =>
          .ok (((a * 16 + b) * 16 + c) * 16 + d, rest)
      | _, _, _, _ => .error (hexFault text)
  | _ => .error (hexFault text)

theorem length_hexQuad_le {text rest : List Char} {unit : Nat}
    (hquad : hexQuad text = .ok (unit, rest)) : rest.length ≤ text.length := by
  unfold hexQuad at hquad
  split at hquad
  · split at hquad
    · simp only [Except.ok.injEq, Prod.mk.injEq] at hquad
      obtain ⟨_, rfl⟩ := hquad
      simp only [List.length_cons]
      omega
    · simp at hquad
  · simp at hquad

/-- The first half of a surrogate pair. -/
def isLeadingHalf (unit : Nat) : Bool := 0xd800 ≤ unit && unit ≤ 0xdbff

def isTrailingHalf (unit : Nat) : Bool := 0xdc00 ≤ unit && unit ≤ 0xdfff

def joinedHalves (leading trailing : Nat) : Char :=
  Char.ofNat ((leading - 0xd800) * 0x400 + (trailing - 0xdc00) + 0x10000)

/-- The character behind a backslash and the letter of a numbered escape.  Halves of
surrogate pairs must come in pairs. -/
def numberedChar (text : List Char) : Except Fault (Char × List Char) :=
  match hexQuad text with
  | .error fault => .error fault
  | .ok (unit, rest) =>
      if isTrailingHalf unit then .error .malformed
      else if isLeadingHalf unit then
        match rest with
        | [] => .error .endOfText
        | ['\\'] => .error .endOfText
        | '\\' :: 'u' :: rest =>
            match hexQuad rest with
            | .error fault => .error fault
            | .ok (trailing, rest) =>
                if isTrailingHalf trailing then .ok (joinedHalves unit trailing, rest)
                else .error .malformed
        | _ => .error .malformed
      else .ok (Char.ofNat unit, rest)

theorem length_numberedChar_le {text rest : List Char} {char : Char}
    (hchar : numberedChar text = .ok (char, rest)) : rest.length ≤ text.length := by
  unfold numberedChar at hchar
  split at hchar
  · simp at hchar
  · rename_i unit after hquad
    have hafter := length_hexQuad_le hquad
    split at hchar
    · simp at hchar
    · split at hchar
      · split at hchar
        · simp at hchar
        · simp at hchar
        · rename_i more
          split at hchar
          · simp at hchar
          · rename_i trailing last hlast
            have hmore := length_hexQuad_le hlast
            split at hchar
            · simp only [Except.ok.injEq, Prod.mk.injEq] at hchar
              obtain ⟨_, rfl⟩ := hchar
              simp only [List.length_cons] at hafter
              omega
            · simp at hchar
        · simp at hchar
      · simp only [Except.ok.injEq, Prod.mk.injEq] at hchar
        obtain ⟨_, rfl⟩ := hchar
        exact hafter

/-- The character that a one-letter escape stands for. -/
def simpleEscape? (char : Char) : Option Char :=
  match char with
  | '"' => some '"'
  | '\\' => some '\\'
  | '/' => some '/'
  | 'b' => some '\x08'
  | 'f' => some '\x0c'
  | 'n' => some '\n'
  | 'r' => some '\r'
  | 't' => some '\t'
  | _ => none

def escapedChar (text : List Char) : Except Fault (Char × List Char) :=
  match text with
  | [] => .error .endOfText
  | 'u' :: rest => numberedChar rest
  | char :: rest =>
      match simpleEscape? char with
      | some meant => .ok (meant, rest)
      | none => .error .malformed

theorem length_escapedChar_le {text rest : List Char} {char : Char}
    (hchar : escapedChar text = .ok (char, rest)) : rest.length ≤ text.length := by
  unfold escapedChar at hchar
  split at hchar
  · simp at hchar
  · exact Nat.le_succ_of_le (length_numberedChar_le hchar)
  · split at hchar
    · simp only [Except.ok.injEq, Prod.mk.injEq] at hchar
      obtain ⟨_, rfl⟩ := hchar
      simp
    · simp at hchar

/-- The text up to the closing quote, its escapes resolved. -/
def quotedText (text : List Char) : Except Fault (List Char × List Char) :=
  match text with
  | [] => .error .endOfText
  | '"' :: rest => .ok ([], rest)
  | '\\' :: rest =>
      match hescape : escapedChar rest with
      | .error fault => .error fault
      | .ok (char, after) =>
          have : after.length ≤ rest.length := length_escapedChar_le hescape
          match quotedText after with
          | .error fault => .error fault
          | .ok (chars, last) => .ok (char :: chars, last)
  | char :: rest =>
      if char < ' ' then .error .malformed
      else
        match quotedText rest with
        | .error fault => .error fault
        | .ok (chars, last) => .ok (char :: chars, last)
termination_by text.length

theorem length_quotedText_le {text chars rest : List Char}
    (hquoted : quotedText text = .ok (chars, rest)) : rest.length ≤ text.length := by
  fun_induction quotedText text generalizing chars rest with
  | case1 => simp at hquoted
  | case2 =>
      simp only [Except.ok.injEq, Prod.mk.injEq] at hquoted
      obtain ⟨_, rfl⟩ := hquoted
      simp
  | case3 => simp at hquoted
  | case4 => simp at hquoted
  | case5 text char after hescape hle more last hmore ih =>
      simp only [Except.ok.injEq, Prod.mk.injEq] at hquoted
      obtain ⟨_, rfl⟩ := hquoted
      have := ih hmore
      simp only [List.length_cons]
      omega
  | case6 => simp at hquoted
  | case7 => simp at hquoted
  | case8 char text _ _ _ more last hmore ih =>
      simp only [Except.ok.injEq, Prod.mk.injEq] at hquoted
      obtain ⟨_, rfl⟩ := hquoted
      have := ih hmore
      simp only [List.length_cons]
      omega

end TickWaves.Json
