import TickWaves.Log.Pattern.Class
import TickWaves.Text.Alphanumeric

/-!
# Patterns

A filter may ask for a value by a pattern.  Only what a span carries is ever matched
against one, and the program has no spans; but a malformed pattern makes the filter
malformed, so patterns are checked (`Pattern.isWellFormed`).  Groups and classes have to be
closed, there has to be something to repeat, escapes and flags have to be known, and groups,
classes, repetitions, sequences and choices must not be nested too deep.

A pattern has no closing brace, since that would end it, so a count in braces is never
closed and always malformed.
-/

namespace TickWaves.Pattern

def depthLimit : Nat := 250

/-- A part of a sequence. -/
inductive Part
  | flags
  /-- Something to match, of some depth. -/
  | piece (depth : Nat)
  deriving DecidableEq, Inhabited

def Part.depth : Part → Nat
  | flags => 0
  | piece depth => depth

/-- What has been read of an open group, or of the pattern around all groups. -/
structure GroupLevel where
  choices : List Nat
  /-- The parts of the last choice, the latest one first. -/
  parts : List Part
  deriving DecidableEq, Inhabited

namespace GroupLevel

def opened : GroupLevel := ⟨[], []⟩

def withPart (level : GroupLevel) (part : Part) : GroupLevel :=
  { level with parts := part :: level.parts }

def lastDepth (level : GroupLevel) : Nat := joined (level.parts.map Part.depth)

def withChoice (level : GroupLevel) : GroupLevel := ⟨level.lastDepth :: level.choices, []⟩

def depth (level : GroupLevel) : Nat := joined (level.lastDepth :: level.choices)

/-- The group with its latest part repeated, if there is something to repeat. -/
def repeated? (level : GroupLevel) : Option GroupLevel :=
  match level.parts with
  | .piece depth :: parts => some { level with parts := .piece (depth + 1) :: parts }
  | _ => none

end GroupLevel

/-- What is known at a place of a pattern. -/
structure State where
  mode : Mode
  level : GroupLevel
  /-- The groups around it, the innermost first, and how the text in them is read. -/
  outer : List (Mode × GroupLevel)
  /-- The open classes, the innermost first. -/
  classes : List ClassLevel
  names : List (List Char)
  deriving DecidableEq, Inhabited

namespace State

def start : State := ⟨Mode.plain, GroupLevel.opened, [], [], []⟩

def withPiece (state : State) (depth : Nat) : State :=
  { state with level := state.level.withPart (.piece depth) }

def opened (state : State) (mode : Mode) : State :=
  { state with
    mode := mode
    level := GroupLevel.opened
    outer := (state.mode, state.level) :: state.outer }

def closed? (state : State) : Option State :=
  match state.outer with
  | (mode, level) :: outer =>
      some ({ state with mode := mode, level := level, outer := outer }.withPiece
        (state.level.depth + 1))
  | [] => none

def classClosed (state : State) : State :=
  match state.classes with
  | [] => state
  | [level] => { state with classes := [] }.withPiece (level.depth + 1)
  | level :: parent :: classes =>
      { state with classes := parent.withMember (level.depth + 1) :: classes }

def canEnd (state : State) : Bool :=
  state.outer.isEmpty && state.classes.isEmpty && decide (state.level.depth ≤ depthLimit)

end State

/-! ## Groups -/

def isName : List Char → Bool
  | [] => false
  | first :: rest =>
      (first == '_' || Text.isAlphabetic first)
        && rest.all fun char => ['_', '.', '[', ']'].contains char || Text.isAlphanumeric char

def namedGroup? (state : State) (text : List Char) : Option (State × List Char) :=
  let name := text.takeWhile fun char => char != '>'
  match text.dropWhile fun char => char != '>' with
  | '>' :: rest =>
      if isName name && !state.names.contains name then
        some ({ state.opened state.mode with names := name :: state.names }, rest)
      else none
  | _ => none

/-- Whether flags are known and given at most once, with at most one hyphen, which is not
the last of them. -/
def areFlags (flags : List Char) : Bool :=
  flags.all (fun flag => ['i', 'm', 's', 'U', 'u', 'R', 'x', '-'].contains flag)
    && decide flags.Nodup && flags.getLast? != some '-'

def flags? (state : State) (text : List Char) : Option (State × List Char) :=
  let isFlag (char : Char) := char != ':' && char != ')'
  let flags := text.takeWhile isFlag
  let mode :=
    state.mode.withFlags (flags.takeWhile fun flag => flag != '-')
      (flags.dropWhile fun flag => flag != '-')
  if !areFlags flags then none
  else
    match text.dropWhile isFlag with
    | ':' :: rest => some (state.opened mode, rest)
    | ')' :: rest =>
        if flags.isEmpty then none
        else some ({ state with mode := mode, level := state.level.withPart .flags }, rest)
    | _ => none

/-- Reads what stands behind an opening parenthesis. -/
def group? (state : State) : List Char → Option (State × List Char)
  | '?' :: 'P' :: '<' :: rest => namedGroup? state rest
  | '?' :: '<' :: rest => namedGroup? state rest
  | '?' :: rest => flags? state rest
  | text => some (state.opened state.mode, text)

/-! ## Signs -/

def openClass? (state : State) (text : List Char) : Option (State × List Char) :=
  let (isNegated, text) := negation state.mode (state.mode.skip text)
  if state.mode.allowsNegation isNegated then
    some ({ state with classes := ClassLevel.opened :: state.classes }, text)
  else none

/-- Reads on inside of a class, around which there may be others. -/
def inClass? (state : State) (level : ClassLevel) (around : List ClassLevel)
    (text : List Char) : Option (State × List Char) :=
  let goOn (level : ClassLevel) (rest : List Char) :=
    some ({ state with classes := level :: around }, rest)
  let goOnIf (isAllowed : Bool) (level : ClassLevel) (rest : List Char) :=
    if isAllowed then goOn level rest else none
  match level.start, text with
  | .first, ']' :: rest => goOnIf state.mode.allowsCharacters (level.withMember 0) rest
  | .first, '-' :: rest => goOnIf state.mode.allowsCharacters level.withHyphen rest
  | .hyphens, '-' :: rest => goOnIf state.mode.allowsCharacters level.withHyphen rest
  | _, '[' :: rest =>
      match asciiClass? rest with
      | some (isNegated, rest) =>
          goOnIf (state.mode.allowsCharacters && state.mode.allowsNegation isNegated)
            (level.withMember 0) rest
      | none => openClass? state rest
  | _, ']' :: rest => some (state.classClosed, rest)
  | _, '&' :: '&' :: rest => goOn level.combining rest
  | _, '-' :: '-' :: rest => goOn level.combining rest
  | _, '~' :: '~' :: rest => goOn level.combining rest
  | _, text => (member? state.mode text).bind fun rest => goOn (level.withMember 0) rest

/-- Reads on behind a sign of repetition, which may be followed by a question mark. -/
def repeated? (state : State) (text : List Char) : Option (State × List Char) :=
  state.level.repeated?.map fun level =>
    match text with
    | '?' :: rest => ({ state with level := level }, rest)
    | text => ({ state with level := level }, text)

def inText? (state : State) : List Char → Option (State × List Char)
  | '(' :: rest => group? state (state.mode.skip rest)
  | ')' :: rest => state.closed?.map fun state => (state, rest)
  | '|' :: rest => some ({ state with level := state.level.withChoice }, rest)
  | '[' :: rest => openClass? state rest
  | '?' :: rest => repeated? state rest
  | '*' :: rest => repeated? state rest
  | '+' :: rest => repeated? state rest
  | '\x7b' :: _ => none
  | '.' :: rest => if state.mode.isUnicode then some (state.withPiece 0, rest) else none
  | '^' :: rest => some (state.withPiece 0, rest)
  | '$' :: rest => some (state.withPiece 0, rest)
  | text => do
      match ← atom? state.mode text with
      | (.character _, rest) =>
          if state.mode.allowsCharacters then some (state.withPiece 0, rest) else none
      | (_, rest) => some (state.withPiece 0, rest)

/-- Reads on by one sign, character, escape or range. -/
def next? (state : State) (text : List Char) : Option (State × List Char) :=
  match state.classes with
  | [] => inText? state text
  | level :: around => inClass? state level around text

def canFinish (steps : Nat) (state : State) (text : List Char) : Bool :=
  match steps, state.mode.skip text with
  | _, [] => state.canEnd
  | 0, _ => false
  | steps + 1, text =>
      match next? state text with
      | some (state, rest) => canFinish steps state rest
      | none => false

/-- Whether a text is a pattern.  Every step takes a character at least, so there are no
more steps than characters. -/
def isWellFormed (text : List Char) : Bool := canFinish text.length State.start text

end TickWaves.Pattern
