import TickWaves.Decimal.Reading

/-!
# The options of the demo program

Arguments are read from left to right, and the first one that cannot be taken is the
error.  An option has a long name, and some have a short one.  Its value follows behind
an equals sign, at once behind a short name, or as the next argument, which then must not
look like an option.  No option may be given twice, and there are no other arguments; the
argument `--` ends the options.
-/

namespace TickWaves.Demo

inductive Switch
  | tickRate
  | maxTicks
  | workers
  | entities
  /-- Whether the plan is shown instead of being run. -/
  | dumpPlan
  /-- The system that is made to fail. -/
  | failSystem
  | help
  deriving DecidableEq, Inhabited

namespace Switch

/-- All options, in the order in which they are shown. -/
def all : List Switch :=
  [tickRate, maxTicks, workers, entities, dumpPlan, failSystem, help]

def longName : Switch → String
  | tickRate => "tick-rate"
  | maxTicks => "max-ticks"
  | workers => "workers"
  | entities => "entities"
  | dumpPlan => "dump-plan"
  | failSystem => "fail-system"
  | help => "help"

def shortName? : Switch → Option Char
  | workers => some 'w'
  | entities => some 'e'
  | help => some 'h'
  | _ => none

/-- What the value of the option is called, if it takes one. -/
def valueName? : Switch → Option String
  | tickRate => some "TICK_RATE"
  | maxTicks => some "MAX_TICKS"
  | workers => some "WORKERS"
  | entities => some "ENTITIES"
  | failSystem => some "NAME"
  | dumpPlan => none
  | help => none

def takesValue (switch : Switch) : Bool := switch.valueName?.isSome

def purpose : Switch → String
  | tickRate => "Target ticks per second"
  | maxTicks => "Stop after this many ticks (0 = run until interrupted)"
  | workers => "Worker threads (0 runs everything on the main thread)"
  | entities => "Entities in the demo world"
  | dumpPlan => "Print the execution plan as JSON and exit"
  | failSystem => "Make the named system fail on every tick"
  | help => "Print help"

def ofLongName? (name : String) : Option Switch :=
  all.find? fun switch => switch.longName == name

def ofShortName? (name : Char) : Option Switch :=
  all.find? fun switch => switch.shortName? == some name

def usage (switch : Switch) : String :=
  let short := switch.shortName?.elim "    " fun name => "-" ++ name.toString ++ ", "
  let value := switch.valueName?.elim "" fun name => " <" ++ name ++ ">"
  let head := "  " ++ short ++ "--" ++ switch.longName ++ value
  head ++ String.ofList (List.replicate (30 - head.length) ' ') ++ switch.purpose

end Switch

structure Options where
  rate : Float
  /-- The number of ticks; zero for no limit. -/
  maxTicks : Nat
  workers? : Option Nat
  entities : Nat
  dumpsPlan : Bool
  failing? : Option String
  deriving Inhabited

/-- Why the arguments cannot be taken. -/
inductive UsageError
  | unknownOption (argument : String)
  | strayArgument (argument : String)
  | missingValue (switch : Switch)
  | needlessValue (switch : Switch) (value : String)
  | badValue (switch : Switch) (value : String)
  | repeated (switch : Switch)
  deriving DecidableEq, Inhabited

def UsageError.message : UsageError → String
  | .unknownOption argument => "unknown option '" ++ argument ++ "'"
  | .strayArgument argument => "unexpected argument '" ++ argument ++ "'"
  | .missingValue switch => "option '--" ++ switch.longName ++ "' needs a value"
  | .needlessValue switch value =>
      "option '--" ++ switch.longName ++ "' takes no value, but got '" ++ value ++ "'"
  | .badValue switch value =>
      "invalid value '" ++ value ++ "' for option '--" ++ switch.longName ++ "'"
  | .repeated switch => "option '--" ++ switch.longName ++ "' is given twice"

/-- One argument by its form. -/
inductive Argument
  | terminator
  /-- An option, and the value that stands in the same argument. -/
  | option (switch : Switch) (attached? : Option String)
  /-- What looks like an option and is none. -/
  | unknown
  /-- Anything else. -/
  | stray
  deriving DecidableEq, Inhabited

namespace Argument

/-- What follows two hyphens: a long name and perhaps a value. -/
def ofLong (chars : List Char) : Argument :=
  let isName (char : Char) := char != '='
  let attached? :=
    match chars.dropWhile isName with
    | _ :: value => some (String.ofList value)
    | [] => none
  match Switch.ofLongName? (String.ofList (chars.takeWhile isName)) with
  | some switch => option switch attached?
  | none => unknown

/-- What follows one hyphen: a short name and perhaps a value. -/
def ofShort (name : Char) (rest : List Char) : Argument :=
  let attached? :=
    match rest with
    | [] => none
    | '=' :: value => some (String.ofList value)
    | value => some (String.ofList value)
  match Switch.ofShortName? name with
  | some .help => option .help none
  | some switch => option switch attached?
  | none => unknown

def ofText (text : String) : Argument :=
  match text.toList with
  | ['-', '-'] => terminator
  | '-' :: '-' :: rest => ofLong rest
  | '-' :: name :: rest => ofShort name rest
  | _ => stray

/-- Whether an argument may be the value of the option before it. -/
def isValue (text : String) : Bool := ofText text == stray

end Argument

namespace Options

def standard : Options := ⟨60.0, 600, none, 1024, false, none⟩

/-- A number that fits in 64 bits. -/
def number? (text : String) : Option Nat :=
  (Decimal.natural? text.toList).filter fun number => decide (number < UInt64.size)

def withValue? (options : Options) (value : String) : Switch → Option Options
  | .tickRate => (Decimal.float? value).map fun rate => { options with rate := rate }
  | .maxTicks => (number? value).map fun ticks => { options with maxTicks := ticks }
  | .workers => (number? value).map fun workers => { options with workers? := some workers }
  | .entities => (number? value).map fun entities => { options with entities := entities }
  | .failSystem => some { options with failing? := some value }
  | .dumpPlan => none
  | .help => none

end Options

/-- What the arguments ask for. -/
inductive Request
  | help
  | run (options : Options)
  deriving Inhabited

/-- The arguments that are taken so far. -/
structure Draft where
  given : List Switch
  options : Options
  deriving Inhabited

namespace Draft

def empty : Draft := ⟨[], Options.standard⟩

def withValue (draft : Draft) (switch : Switch) (value : String) :
    Except UsageError Draft :=
  if switch ∈ draft.given then .error (.repeated switch)
  else match draft.options.withValue? value switch with
    | some options => .ok ⟨switch :: draft.given, options⟩
    | none => .error (.badValue switch value)

def withDump (draft : Draft) : Except UsageError Draft :=
  if .dumpPlan ∈ draft.given then .error (.repeated .dumpPlan)
  else .ok ⟨.dumpPlan :: draft.given, { draft.options with dumpsPlan := true }⟩

end Draft

namespace Request

/-- What an argument leads to. -/
inductive Step
  | next (draft : Draft)
  /-- The next argument is the value of an option. -/
  | value (switch : Switch)
  | done (request : Request)
  /-- There must be no next argument. -/
  | last
  | refused (error : UsageError)

/-- Goes on with a draft, unless there is an error. -/
def Step.ofDraft : Except UsageError Draft → Step
  | .ok draft => next draft
  | .error error => refused error

def takeOption (draft : Draft) : Switch → Option String → Step
  | .help, none => .done .help
  | .dumpPlan, none => .ofDraft draft.withDump
  | switch, none => .value switch
  | switch, some value =>
      if switch.takesValue then .ofDraft (draft.withValue switch value)
      else .refused (.needlessValue switch value)

/-- Takes an argument that is not the value of an option before it. -/
def take (draft : Draft) (argument : String) : Step :=
  match Argument.ofText argument with
  | .terminator => .last
  | .option switch attached? => takeOption draft switch attached?
  | .unknown => .refused (.unknownOption argument)
  | .stray => .refused (.strayArgument argument)

/-- Reads arguments behind the ones that are taken.  If an option is pending, the first
of them is its value. -/
def continued : List String → Option Switch → Draft → Except UsageError Request
  | [], none, draft => .ok (.run draft.options)
  | [], some switch, _ => .error (.missingValue switch)
  | argument :: arguments, some switch, draft =>
      if Argument.isValue argument then
        match draft.withValue switch argument with
        | .ok draft => continued arguments none draft
        | .error error => .error error
      else .error (.missingValue switch)
  | argument :: arguments, none, draft =>
      match take draft argument with
      | .next draft => continued arguments none draft
      | .value switch => continued arguments (some switch) draft
      | .done request => .ok request
      | .last => arguments.head?.elim (.ok (.run draft.options)) fun stray =>
          .error (.strayArgument stray)
      | .refused error => .error error

def ofArguments (arguments : List String) : Except UsageError Request :=
  continued arguments none Draft.empty

def helpText : String :=
  String.intercalate "\n" <|
    ["Parallel ECS scheduler demo", "", "Usage: engine_app [OPTIONS]", "", "Options:"]
      ++ Switch.all.map Switch.usage

end Request

end TickWaves.Demo
