import TickWaves.Decimal.Reading
import TickWaves.Log.Pattern.Basic
import TickWaves.Log.Record
import TickWaves.Text.Bytes

/-!
# Directives of a log filter

A directive is a threshold with an optional target, span and field, written
`target[span{field}]=threshold`.  A text without brackets and equals sign is a
threshold if it names one, and else a target.  Without a threshold, everything is kept.

A directive is read as if there were no blanks at its ends: the signs in it are found by
their places in the text without these blanks.  The parts between the signs, however, are
taken from the text with the blanks, at the same places.  So a blank at the front moves
every part, and a part can even begin or end inside a character, in which case nothing can
be read at all.
-/

namespace TickWaves

def Text.trimmed (chars : List Char) : List Char :=
  ((chars.dropWhile isBlank).reverse.dropWhile isBlank).reverse

/-- The least severity that is kept; `none` keeps nothing. -/
abbrev Threshold := Option Severity

namespace Threshold

/-- The threshold with a number: zero keeps nothing, and every further one keeps one
severity more. -/
def ofNumber? : Nat → Option Threshold
  | 0 => some none
  | number + 1 => Severity.all[number]?.map some

/-- The threshold with a name, in any case of letters. -/
def ofName? (name : String) : Option Threshold :=
  let upper := String.ofList (name.toList.map Char.toUpper)
  if upper = "OFF" then some none
  else (Severity.all.find? fun severity => severity.label == upper).map some

def ofChars? (chars : List Char) : Option Threshold :=
  match (Decimal.natural? chars).bind ofNumber? with
  | some threshold => some threshold
  | none => ofName? (String.ofList chars)

def keeps (threshold : Threshold) (severity : Severity) : Bool :=
  threshold.any fun least => decide (severity.rank ≤ least.rank)

end Threshold

/-- Why a directive cannot be read. -/
inductive DirectiveFault
  | malformed
  /-- A part would begin or end inside a character. -/
  | brokenCharacter
  deriving DecidableEq, Inhabited

/-- A field that a record or a span must have. -/
structure FieldCondition where
  name : String
  hasValue : Bool
  deriving DecidableEq, Inhabited

namespace FieldCondition

/-- Whether a text is a value: a number or a pattern.  Truth values are patterns. -/
def isValue (chars : List Char) : Bool :=
  (Decimal.float? (String.ofList chars)).isSome || Pattern.isWellFormed chars

/-- The condition that a text is: a name, or a name and a value with an equals sign
between them.  What stands behind a second equals sign is left out. -/
def ofChars? (chars : List Char) : Option FieldCondition :=
  let isPart (char : Char) := char != '='
  let name := String.ofList (chars.takeWhile isPart)
  match chars.dropWhile isPart with
  | '=' :: rest => if isValue (rest.takeWhile isPart) then some ⟨name, true⟩ else none
  | _ => if chars.isEmpty then none else some ⟨name, false⟩

end FieldCondition

structure Directive where
  target? : Option String
  span? : Option String
  field? : Option FieldCondition
  threshold : Threshold
  deriving DecidableEq, Inhabited

namespace Directive

def all : Directive := ⟨none, none, none, some .trace⟩

def ofThreshold (threshold : Threshold) : Directive := { all with threshold := threshold }

def ofTarget (target : String) (threshold : Threshold) : Directive :=
  { all with target? := some target, threshold := threshold }

/-- Whether a directive is about spans and what they carry, and so about no record: the
program has no spans. -/
def concernsSpans (directive : Directive) : Bool :=
  directive.span?.isSome || directive.field?.any FieldCondition.hasValue

/-- Whether a directive says something about a record: the path of its source starts with
the target, and it has the field. -/
def covers (directive : Directive) (record : LogRecord) : Bool :=
  !directive.concernsSpans
    && directive.target?.all (fun target =>
      target.toList.isPrefixOf record.source.path.toList)
    && directive.field?.all (fun field => record.fieldNames.contains field.name)

/-- How narrow the target of a directive is. -/
def width (directive : Directive) : Nat :=
  directive.target?.elim 0 fun target => target.utf8ByteSize + 1

/-- The name of the field of a directive, and nothing if there is none. -/
def fieldName (directive : Directive) : List Char :=
  directive.field?.elim [] fun field => field.name.toList

/-- Whether a directive gives way to another one: it has a wider target or, if the targets
are equally wide, the field that comes first in the order of names; no field comes before
all others. -/
def yieldsTo (first second : Directive) : Bool :=
  decide (first.width < second.width)
    || (first.width == second.width
      && (first.field?.isNone
        || (second.field?.isSome && !decide (second.fieldName < first.fieldName))))

/-! ## Reading -/

/-- Where the reading of a directive is.  A part that is being read began at a place. -/
inductive Stage
  /-- Nothing has been read. -/
  | start
  /-- A threshold or a target is being read. -/
  | head (begin : Nat)
  | span (begin : Nat)
  | field (begin : Nat)
  /-- The field has been read. -/
  | fieldEnd
  /-- Everything in front of the threshold has been read. -/
  | scopeEnd
  | level (begin : Nat)
  deriving DecidableEq, Inhabited

structure Draft where
  stage : Stage
  directive : Directive
  deriving DecidableEq, Inhabited

/-- Whether a directive may begin with a character, apart from an opening bracket. -/
def canStart (char : Char) : Bool :=
  ['-', ':', '_'].contains char || Text.isAlphanumeric char

def part (text : List Char) (begin stop : Nat) : Except DirectiveFault (List Char) :=
  match Text.between? text begin stop with
  | some part => .ok part
  | none => .error .brokenCharacter

/-- The part of a text behind a place. -/
def partFrom (text : List Char) (begin : Nat) : Except DirectiveFault (List Char) :=
  part text begin (Text.byteLength text)

namespace Draft

/-- The draft with what the character at a place adds to it. -/
def next (text : List Char) (draft : Draft) (place : Nat) (char : Char) :
    Except DirectiveFault Draft := do
  let known := draft.directive
  match draft.stage, char with
  | .start, '[' => return ⟨.span (place + 1), known⟩
  | .start, char => if canStart char then return ⟨.head place, known⟩ else throw .malformed
  | .head begin, '=' =>
      let target := String.ofList (← part text begin place)
      return ⟨.level (place + 1), { known with target? := some target }⟩
  | .head begin, '[' =>
      let target := String.ofList (← part text begin place)
      return ⟨.span (place + 1), { known with target? := some target }⟩
  | .span begin, ']' =>
      let span := String.ofList (← part text begin place)
      return ⟨.scopeEnd, { known with span? := some span }⟩
  | .span begin, '\x7b' =>
      let span := String.ofList (← part text begin place)
      return ⟨.field (place + 1), { known with span? := if span = "" then none else some span }⟩
  | .field begin, '\x7d' =>
      match FieldCondition.ofChars? (← part text begin place) with
      | some field => return ⟨.fieldEnd, { known with field? := some field }⟩
      | none => throw .malformed
  | .fieldEnd, ']' => return ⟨.scopeEnd, known⟩
  | .scopeEnd, '=' => return ⟨.level (place + 1), known⟩
  | .fieldEnd, _ => throw .malformed
  | .scopeEnd, _ => throw .malformed
  | _, _ => return draft

def finish (text : List Char) (draft : Draft) : Except DirectiveFault Directive := do
  match draft.stage with
  | .head begin =>
      let head ← partFrom text begin
      match Threshold.ofChars? head with
      | some threshold => return ofThreshold threshold
      | none => return ofTarget (String.ofList head) (some .trace)
  | .level begin =>
      let level ← partFrom text begin
      if level.isEmpty then return draft.directive
      match Threshold.ofChars? level with
      | some threshold => return { draft.directive with threshold := threshold }
      | none => throw .malformed
  | .scopeEnd => return draft.directive
  | _ => throw .malformed

def readOn (text : List Char) (draft : Draft) (place : Nat) :
    List Char → Except DirectiveFault Directive
  | [] => draft.finish text
  | char :: rest => do
      let draft ← draft.next text place char
      draft.readOn text (place + char.utf8Size) rest

end Draft

def ofChars (text : List Char) : Except DirectiveFault Directive :=
  Draft.readOn text ⟨.start, all⟩ 0 (Text.trimmed text)

end Directive

end TickWaves
