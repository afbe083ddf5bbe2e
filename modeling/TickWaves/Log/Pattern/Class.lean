import TickWaves.Log.Pattern.Atom

/-!
# Classes in patterns

A class stands in brackets.  Its members are characters, ranges of characters, named
classes and classes in brackets; two signs such as `&&` between members combine what stands
in front of them with what stands behind.  How deep a class is nested is counted while it
is read (`ClassLevel`).
-/

namespace TickWaves.Pattern

/-- The depth of parts that are put together.  One part is no deeper than alone. -/
def joined : List Nat → Nat
  | [] => 0
  | [depth] => depth
  | depths => depths.foldr max 0 + 1

/-! ## Members -/

/-- Takes a caret off the text, if it starts with one. -/
def negation (mode : Mode) : List Char → Bool × List Char
  | '^' :: rest => (true, mode.skip rest)
  | text => (false, text)

def classNames : List String :=
  ["alnum", "alpha", "ascii", "blank", "cntrl", "digit", "graph", "lower", "print", "punct",
   "space", "upper", "word", "xdigit"]

/-- A class of ASCII by its name, behind the opening bracket: whether it is negated, and
the text behind it.  No blanks may stand in it. -/
def asciiClass? : List Char → Option (Bool × List Char)
  | ':' :: text =>
      let (isNegated, text) := negation Mode.plain text
      let name := String.ofList (text.takeWhile fun char => char != ':')
      match text.dropWhile fun char => char != ':' with
      | ':' :: ']' :: rest => if classNames.contains name then some (isNegated, rest) else none
      | _ => none
  | _ => none

def Mode.allowsAtom (mode : Mode) : Atom → Bool
  | .character char => mode.allowsMember char
  | .named => true
  | .position => false

/-- Whether a range may reach from one member to another. -/
def Mode.allowsRange (mode : Mode) : Atom → Atom → Bool
  | .character least, .character greatest =>
      mode.allowsMember least && mode.allowsMember greatest && decide (least ≤ greatest)
  | _, _ => false

/-- Takes a character, a range of characters or an escape off the text of a class.  A hyphen
in front of a closing bracket or of another hyphen makes no range. -/
def member? (mode : Mode) (text : List Char) : Option (List Char) := do
  let (first, rest) ← atom? mode text
  let alone := if mode.allowsAtom first then some rest else none
  match mode.skip rest with
  | '-' :: behind =>
      if [some ']', some '-'].contains (mode.nextSign? behind) then alone
      else
        let (last, rest) ← atom? mode (mode.skip behind)
        if mode.allowsRange first last then some rest else none
  | _ => alone

/-! ## Nesting -/

/-- Where the reading of a class is. -/
inductive ClassStart
  /-- Right behind the opening bracket, where a closing bracket stands for itself. -/
  | first
  /-- Behind hyphens at the start, where further hyphens stand for themselves. -/
  | hyphens
  | past
  deriving DecidableEq, Inhabited

structure ClassLevel where
  start : ClassStart
  /-- The depth of what stands in front of the last combining signs, if there are any. -/
  combined? : Option Nat
  members : List Nat
  deriving DecidableEq, Inhabited

namespace ClassLevel

def opened : ClassLevel := ⟨.first, none, []⟩

def withMember (level : ClassLevel) (depth : Nat) : ClassLevel :=
  { level with start := .past, members := depth :: level.members }

def withHyphen (level : ClassLevel) : ClassLevel :=
  { level with start := .hyphens, members := 0 :: level.members }

def depth (level : ClassLevel) : Nat :=
  match level.combined? with
  | none => joined level.members
  | some combined => max combined (joined level.members) + 1

/-- The class with combining signs behind what has been read. -/
def combining (level : ClassLevel) : ClassLevel := ⟨.past, some level.depth, []⟩

end ClassLevel

end TickWaves.Pattern
