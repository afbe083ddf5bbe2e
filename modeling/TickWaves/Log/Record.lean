import TickWaves.Json.Document

/-!
# Log records

A record has a severity, the part of the program it comes from, a message and fields.
A value that depends on the clock is marked as measured, so that whoever compares two
logs can tell what may differ between them.
-/

namespace TickWaves

inductive Severity
  | error
  | warning
  | info
  | debug
  | trace
  deriving DecidableEq, Inhabited

namespace Severity

/-- The severities, the gravest one first. -/
def all : List Severity := [error, warning, info, debug, trace]

/-- The place of a severity among all, counted from one. -/
def rank : Severity → Nat
  | error => 1
  | warning => 2
  | info => 3
  | debug => 4
  | trace => 5

def label : Severity → String
  | error => "ERROR"
  | warning => "WARN"
  | info => "INFO"
  | debug => "DEBUG"
  | trace => "TRACE"

end Severity

/-- A part of the program that writes records. -/
inductive Source
  | pool
  | scheduler
  /-- What runs a plan. -/
  | executor
  | systems
  | tickLoop
  /-- The program around them. -/
  | program
  deriving DecidableEq, Inhabited

/-- The source as records show it and as filters address it: a path whose parts are
separated by double colons. -/
def Source.path : Source → String
  | .pool => "engine_schedule::pool"
  | .scheduler => "engine_schedule::scheduler"
  | .executor => "engine_schedule::executor"
  | .systems => "engine_app::systems"
  | .tickLoop => "engine_app::tick"
  | .program => "engine_app"

inductive FieldValue
  /-- A text that is shown as it is. -/
  | plain (text : String)
  /-- A text that is shown in quotes. -/
  | quoted (text : String)
  /-- A number that depends on the clock. -/
  | measured (amount : Nat)
  deriving DecidableEq, Inhabited

namespace FieldValue

def text : FieldValue → String
  | plain text => text
  | quoted text => Json.quoted text
  | measured amount => toString amount

def number (amount : Nat) : FieldValue := plain (toString amount)

def flag (value : Bool) : FieldValue := plain (if value then "true" else "false")

end FieldValue

structure LogRecord where
  severity : Severity
  source : Source
  message : String
  /-- What it happened to: names and values, in the order in which they are shown. -/
  fields : List (String × FieldValue)
  deriving DecidableEq, Inhabited

namespace LogRecord

def fieldText (field : String × FieldValue) : String := field.1 ++ "=" ++ field.2.text

/-- The names of what a record tells: its message and its fields. -/
def fieldNames (record : LogRecord) : List String :=
  "message" :: record.fields.map Prod.fst

def text (record : LogRecord) : String :=
  String.intercalate " "
    ((record.severity.label ++ " " ++ record.source.path ++ ":")
      :: record.message :: record.fields.map fieldText)

end LogRecord

end TickWaves
