import TickWaves.Log.Directive

/-!
# Which records are kept

A filter is a list of directives separated by commas.  Of the directives that cover a
record, the narrowest decides (`LogFilter.decisive?`), and of two with the same target and
field the later one.  A record that no directive covers is dropped.
-/

namespace TickWaves

structure LogFilter where
  /-- The directives, in the order in which they are given. -/
  directives : List Directive
  deriving DecidableEq, Inhabited

namespace LogFilter

def standard : LogFilter :=
  ⟨[.ofTarget "engine_app" (some .info), .ofTarget "engine_schedule" (some .info)]⟩

/-- The filter that a text is.  Parts between commas may be empty, and a text with no other
parts is the filter that drops everything.  The first part that is no directive tells what
is wrong with the text. -/
def ofText (text : String) : Except DirectiveFault LogFilter :=
  let parts := (text.splitToList fun char => char == ',').filter fun part => !part.isEmpty
  (parts.mapM fun part => Directive.ofChars part.toList).map mk

/-- The filter for a setting that may be missing.  A malformed setting counts as missing,
but one that would be cut inside a character is no setting for any filter. -/
def ofSetting? : Option String → Option LogFilter
  | none => some standard
  | some text =>
      match ofText text with
      | .ok filter => some filter
      | .error .malformed => some standard
      | .error .brokenCharacter => none

/-- The directive that decides about a record: one that covers it and that gives way to no
earlier and to no other later one. -/
def decisive? (filter : LogFilter) (record : LogRecord) : Option Directive :=
  (filter.directives.filter fun directive => directive.covers record).foldl
    (fun best? directive =>
      if best?.all fun best => best.yieldsTo directive then some directive else best?)
    none

def keeps (filter : LogFilter) (record : LogRecord) : Bool :=
  (filter.decisive? record).any fun directive => directive.threshold.keeps record.severity

end LogFilter

end TickWaves
