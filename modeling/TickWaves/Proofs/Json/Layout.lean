import Mathlib.Data.List.Basic
import TickWaves.Json.Document
import TickWaves.Json.Number

/-!
# Layouts of JSON documents

A document is a sequence of tokens (`Document.tokens`), and a text that has these tokens in turn,
with blanks anywhere between them, is a layout of it (`LaidOut`).  The compact text is the layout
without blanks (`Document.laidOut_compact`).

A number is taken off a text exactly as it was written, as long as what follows does not continue
it (`number_repr`).
-/

namespace TickWaves.Json

/-- The tokens stand in the text in turn, with blanks anywhere before and behind them. -/
inductive LaidOut : List (List Char) → List Char → Prop
  | nil (blanks : List Char) (hblanks : ∀ char ∈ blanks, isBlank char = true) : LaidOut [] blanks
  | cons (blanks token : List Char) {tokens : List (List Char)} {text : List Char}
      (hblanks : ∀ char ∈ blanks, isBlank char = true) (hrest : LaidOut tokens text) :
      LaidOut (token :: tokens) (blanks ++ (token ++ text))

namespace LaidOut

variable {char : Char} {chars text : List Char} {tokens : List (List Char)}

theorem flatten (tokens : List (List Char)) : LaidOut tokens tokens.flatten := by
  induction tokens with
  | nil => exact .nil [] (List.forall_mem_nil _)
  | cons token tokens ih => exact .cons [] token (List.forall_mem_nil _) ih

theorem skipBlanks_append {blanks : List Char} (hblanks : ∀ char ∈ blanks, isBlank char = true)
    (text : List Char) : skipBlanks (blanks ++ text) = skipBlanks text :=
  List.dropWhile_append_of_pos hblanks

theorem skipBlanks_cons (hchar : isBlank char = false) :
    skipBlanks (char :: chars) = char :: chars :=
  List.dropWhile_cons_of_neg (by simp [hchar])

/-- Behind the blanks stands the first token. -/
theorem exists_skipBlanks_eq (hlaid : LaidOut ((char :: chars) :: tokens) text)
    (hchar : isBlank char = false) :
    ∃ rest, skipBlanks text = char :: (chars ++ rest) ∧ LaidOut tokens rest := by
  cases hlaid with
  | cons blanks _ hblanks hrest =>
      refine ⟨_, ?_, hrest⟩
      rw [skipBlanks_append hblanks, List.cons_append, skipBlanks_cons hchar]

theorem exists_skipBlanks_eq_singleton (hlaid : LaidOut ([char] :: tokens) text)
    (hchar : isBlank char = false) :
    ∃ rest, skipBlanks text = char :: rest ∧ LaidOut tokens rest :=
  hlaid.exists_skipBlanks_eq hchar

theorem skipBlanks_eq_nil (hlaid : LaidOut [] text) : skipBlanks text = [] := by
  cases hlaid with
  | nil _ hblanks =>
      rw [← List.append_nil text, skipBlanks_append hblanks]
      rfl

end LaidOut

section Numbers

/-- The character could belong to a number that stands before it. -/
def continuesNumber (char : Char) : Bool :=
  char.isDigit || char == '.' || char == 'e' || char == 'E'

theorem continuesNumber_of_isBlank {char : Char} (hblank : isBlank char = true) :
    continuesNumber char = false := by
  simp only [isBlank, Bool.or_eq_true, beq_iff_eq] at hblank
  rcases hblank with ((rfl | rfl) | rfl) | rfl <;> decide

/-- No number goes on in a text that starts with blanks or with a token of another kind. -/
theorem LaidOut.any_continuesNumber {char : Char} {chars text : List Char}
    {tokens : List (List Char)} (hlaid : LaidOut ((char :: chars) :: tokens) text)
    (hchar : continuesNumber char = false) : text.head?.any continuesNumber = false := by
  cases hlaid with
  | cons blanks _ hblanks _ =>
      cases blanks with
      | nil => exact hchar
      | cons blank blanks =>
          exact continuesNumber_of_isBlank (hblanks blank List.mem_cons_self)

/-- No number is written with a zero before other digits. -/
theorem toDigits_eq_zero_cons {value : Nat} {chars : List Char}
    (hdigits : Nat.toDigits 10 value = '0' :: chars) : chars = [] := by
  induction value using Nat.strongRecOn generalizing chars with
  | ind value ih =>
      by_cases hsmall : value < 10
      · rw [Nat.toDigits_of_lt_base hsmall] at hdigits
        exact (List.cons.inj hdigits).2.symm
      · rw [Nat.toDigits_of_base_le (by decide) (by omega)] at hdigits
        rcases List.append_eq_cons_iff.mp hdigits with ⟨hnil, -⟩ | ⟨front, hfront, -⟩
        · exact absurd hnil Nat.toDigits_ne_nil
        · -- The digits before the last one would be a single zero, and the number below ten.
          have hzero : Nat.toDigits 10 (value / 10) = ['0'] := by
            rw [hfront, ih (value / 10) (by omega) hfront]
          have hnone := Nat.ofDigitChars_ten_toDigits (n := value / 10)
          rw [hzero, Nat.ofDigitChars_eq_foldl, List.foldl_cons, List.foldl_nil] at hnone
          omega

theorem ofDigits_toDigits (value : Nat) : Decimal.ofDigits (Nat.toDigits 10 value) = value := by
  calc
    Decimal.ofDigits (Nat.toDigits 10 value)
        = Nat.ofDigitChars 10 (Nat.toDigits 10 value) 0 := by
      simp only [Decimal.ofDigits, Nat.ofDigitChars_eq_foldl, Nat.mul_comm]
    _ = value := Nat.ofDigitChars_ten_toDigits

variable {value : Nat} {rest : List Char}

theorem leadingDigits_append {digits : List Char} (hdigits : ∀ char ∈ digits, char.isDigit = true)
    (hrest : startsWithDigit rest = false) : leadingDigits (digits ++ rest) = digits := by
  rw [leadingDigits, List.takeWhile_append_of_pos hdigits]
  cases rest with
  | nil => exact List.append_nil digits
  | cons char rest =>
      rw [List.takeWhile_cons_of_neg (by simpa [startsWithDigit] using hrest), List.append_nil]

theorem skipDigits_append {digits : List Char} (hdigits : ∀ char ∈ digits, char.isDigit = true)
    (hrest : startsWithDigit rest = false) : skipDigits (digits ++ rest) = rest := by
  rw [skipDigits, List.dropWhile_append_of_pos hdigits]
  cases rest with
  | nil => rfl
  | cons char rest =>
      rw [List.dropWhile_cons_of_neg (by simpa [startsWithDigit] using hrest)]

/-- A natural number of 64 bits is complete where nothing continues it. -/
theorem fraction_eq {digits : List Char} (hvalue : Decimal.ofDigits digits < UInt64.size)
    (hrest : rest.head?.any continuesNumber = false) :
    fraction false digits rest = .ok (some (Decimal.ofDigits digits), rest) := by
  have hexponent : startsExponent rest = false := by
    cases rest with
    | nil => rfl
    | cons char rest => simp_all [continuesNumber, startsExponent]
  rw [fraction.eq_def]
  split
  case h_1 => cases hrest
  case h_2 => simp [hexponent, Nat.not_le.mpr hvalue]

/-- A number of 64 bits is taken off a text as it was written. -/
theorem number_toString (hvalue : value < UInt64.size)
    (hrest : rest.head?.any continuesNumber = false) :
    number false ((toString value).toList ++ rest) = .ok (some value, rest) := by
  have hstart : startsWithDigit rest = false := by
    cases rest with
    | nil => rfl
    | cons char rest => simp_all [continuesNumber, startsWithDigit]
  have hall : ∀ char ∈ Nat.toDigits 10 value, char.isDigit = true :=
    fun char hchar => Nat.isDigit_of_mem_toDigits (by decide) (Nat.le_refl 10) hchar
  have hfraction : fraction false (Nat.toDigits 10 value) rest = .ok (some value, rest) := by
    rw [fraction_eq (by rwa [ofDigits_toDigits]) hrest, ofDigits_toDigits]
  rw [Nat.toString_eq_repr, Nat.toList_repr, number, leadingDigits_append hall hstart,
    skipDigits_append hall hstart, hfraction]
  cases hdigits : Nat.toDigits 10 value with
  | nil => exact absurd hdigits Nat.toDigits_ne_nil
  | cons char chars =>
      have hchar : char.isDigit = true := hall char (hdigits ▸ List.mem_cons_self)
      have hzero : ¬ (char = '0' ∧ startsWithDigit (chars ++ rest) = true) := by
        rintro ⟨rfl, hdigit⟩
        rw [toDigits_eq_zero_cons hdigits, List.nil_append, hstart] at hdigit
        cases hdigit
      have hfirst : startsWithDigit (char :: (chars ++ rest)) = true := hchar
      simp [hfirst, hzero]

end Numbers

section Quoted

/-- The character stands for itself between quotes. -/
def isPlain (char : Char) : Bool :=
  !decide (char < ' ') && char != '"' && char != '\\'

theorem isPlain_eq_true_iff {char : Char} :
    isPlain char = true ↔ ¬ char < ' ' ∧ char ≠ '"' ∧ char ≠ '\\' := by
  simp [isPlain, and_assoc]

theorem escaped_eq_singleton {char : Char} (hplain : isPlain char = true) :
    escaped char = [char] := by
  obtain ⟨hprinted, hquote, hescape⟩ := isPlain_eq_true_iff.mp hplain
  rw [escaped.eq_def]
  split
  case h_1 => exact absurd rfl hquote
  case h_2 => exact absurd rfl hescape
  case h_8 => rw [if_neg hprinted]
  all_goals exact absurd (by decide) hprinted

/-- A plain text is written as it is. -/
theorem toList_quoted {text : String} (hplain : ∀ char ∈ text.toList, isPlain char = true) :
    (quoted text).toList = '"' :: (text.toList ++ ['"']) := by
  have hchars : text.toList.flatMap escaped = text.toList := by
    rw [List.flatMap_congr fun char hchar => escaped_eq_singleton (hplain char hchar)]
    exact List.flatMap_singleton' text.toList
  rw [quoted, hchars]
  simp

/-- A plain text is read up to the quote. -/
theorem quotedText_append {chars : List Char} (hplain : ∀ char ∈ chars, isPlain char = true)
    (rest : List Char) : quotedText (chars ++ '"' :: rest) = .ok (chars, rest) := by
  induction chars with
  | nil => rw [List.nil_append, quotedText]
  | cons char chars ih =>
      obtain ⟨hchar, hplain⟩ := List.forall_mem_cons.mp hplain
      obtain ⟨hprinted, hquote, hescape⟩ := isPlain_eq_true_iff.mp hchar
      rw [List.cons_append, quotedText.eq_def]
      split
      case h_4 heq =>
        cases heq
        rw [if_neg hprinted, ih hplain]
      all_goals simp_all

end Quoted

section Tokens

theorem flatten_intercalate {α : Type*} (separator : List (List α)) (parts : List (List (List α))) :
    (separator.intercalate parts).flatten =
      separator.flatten.intercalate (parts.map List.flatten) := by
  induction parts with
  | nil => rfl
  | cons part parts ih =>
      cases parts with
      | nil => simp
      | cons next parts =>
          rw [List.intercalate_cons_cons, List.flatten_append, List.flatten_append, ih]
          simp only [List.map_cons, List.intercalate_cons_cons]

/-- What follows the first part stands behind separators. -/
theorem intercalate_cons {α : Type*} (separator part : List α) (parts : List (List α)) :
    separator.intercalate (part :: parts) = part ++ parts.flatMap (separator ++ ·) := by
  induction parts generalizing part with
  | nil => simp
  | cons next parts ih =>
      rw [List.intercalate_cons_cons, ih, List.flatMap_cons, List.append_assoc, List.append_assoc]

namespace Document

mutual

/-- The tokens of a document, in the order in which they are written. -/
def tokens : Document → List (List Char)
  | number value => [(toString value).toList]
  | flag value => [(if value then "true" else "false").toList]
  | text value => [(quoted value).toList]
  | list items => ['['] :: ([[',']].intercalate (itemsTokens items) ++ [[']']])
  | record fields => ['\x7b'] :: ([[',']].intercalate (fieldsTokens fields) ++ [['\x7d']])

def itemsTokens : List Document → List (List (List Char))
  | [] => []
  | item :: items => tokens item :: itemsTokens items

def fieldsTokens : List (String × Document) → List (List (List Char))
  | [] => []
  | field :: fields => fieldTokens field :: fieldsTokens fields

def fieldTokens : String × Document → List (List Char)
  | (name, value) => (quoted name).toList :: [':'] :: tokens value

end

theorem toList_commaSeparated (texts : List String) :
    (commaSeparated texts).toList = [','].intercalate (texts.map String.toList) := by
  rw [commaSeparated, String.toList_intercalate]
  rfl

mutual

theorem toList_compact : (document : Document) → document.compact.toList = document.tokens.flatten
  | number value => by simp [compact, tokens]
  | flag value => by simp [compact, tokens]
  | text value => by simp [compact, tokens]
  | list items => by
      simp [compact, tokens, toList_commaSeparated, flatten_intercalate, toList_compactItems items]
  | record fields => by
      simp [compact, tokens, toList_commaSeparated, flatten_intercalate,
        toList_compactFields fields]

theorem toList_compactItems : (items : List Document) →
    (compactItems items).map String.toList = (itemsTokens items).map List.flatten
  | [] => rfl
  | item :: items => by
      rw [compactItems, itemsTokens, List.map_cons, List.map_cons, toList_compact item,
        toList_compactItems items]

theorem toList_compactFields : (fields : List (String × Document)) →
    (compactFields fields).map String.toList = (fieldsTokens fields).map List.flatten
  | [] => rfl
  | field :: fields => by
      rw [compactFields, fieldsTokens, List.map_cons, List.map_cons, toList_compactField field,
        toList_compactFields fields]

theorem toList_compactField : (field : String × Document) →
    (compactField field).toList = (fieldTokens field).flatten
  | (name, value) => by simp [compactField, fieldTokens, toList_compact value]

end

/-- The compact text has no blanks between the tokens. -/
theorem laidOut_compact (document : Document) :
    LaidOut document.tokens document.compact.toList := by
  rw [toList_compact]
  exact LaidOut.flatten document.tokens

end Document

end Tokens

end TickWaves.Json
