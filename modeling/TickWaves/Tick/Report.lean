import TickWaves.Ident
import TickWaves.Tick.Pool

/-!
# Reports on a tick

A report says of every system of the plan what became of it, in the order of the waves.
The failures are collected from it (`Report.failures`), each with the systems that
shared its wave and those that were skipped because of it.
-/

namespace TickWaves

/-- Why a system failed. -/
inductive SystemError
  /-- The body returned an error, or was not run for want of a pool. -/
  | failed (text : String)
  | panicked (text : String)
  deriving DecidableEq, Inhabited

namespace SystemError

def message : SystemError → String
  | failed text => "system returned an error: " ++ text
  | panicked text => "system panicked: " ++ text

def ofTask : TaskError → SystemError
  | .failed causes => .failed (TaskError.chainText causes)
  | .panicked message => .panicked message
  | .disconnected => .failed TaskError.disconnected.message

end SystemError

/-- What became of a system in a tick. -/
inductive Status
  /-- It ran and did its work. -/
  | completed
  | failed (error : SystemError)
  /-- It was not run because a system before it failed. -/
  | skipped (blockedBy : SystemId)
  /-- It was not run because the tick was cancelled first. -/
  | cancelled
  deriving DecidableEq, Inhabited

namespace Status

def error? : Status → Option SystemError
  | failed error => some error
  | _ => none

def isSkippedBy (status : Status) (id : SystemId) : Bool := status == skipped id

def isSkipped : Status → Bool
  | skipped _ => true
  | _ => false

end Status

structure Outcome where
  id : SystemId
  name : String
  wave : Nat
  status : Status
  elapsed? : Option Duration
  deriving DecidableEq, Inhabited

structure Report where
  tick : Nat
  generation : Nat
  /-- The systems, in the order of the waves. -/
  outcomes : List Outcome
  wavesRun : Nat
  isCancelled : Bool
  deriving DecidableEq, Inhabited

/-- A system that failed, and what its failure touched. -/
structure Failure where
  id : SystemId
  name : String
  wave : Nat
  error : SystemError
  /-- The other systems of the wave, which went on. -/
  siblings : List SystemId
  skipped : List SystemId
  deriving DecidableEq, Inhabited

namespace Report

/-- The outcome of a system; of several, the first one. -/
def outcome? (report : Report) (id : SystemId) : Option Outcome :=
  report.outcomes.find? fun outcome => outcome.id == id

def failed (report : Report) : List Outcome :=
  report.outcomes.filter fun outcome => outcome.status.error?.isSome

def completedCount (report : Report) : Nat :=
  report.outcomes.countP fun outcome => outcome.status == .completed

def isSuccess (report : Report) : Bool :=
  report.completedCount == report.outcomes.length

def siblings (report : Report) (outcome : Outcome) : List SystemId :=
  (report.outcomes.filter fun other =>
    other.wave == outcome.wave && other.id != outcome.id).map Outcome.id

/-- The systems that were skipped because of the given one. -/
def skippedBy (report : Report) (id : SystemId) : List SystemId :=
  (report.outcomes.filter fun other => other.status.isSkippedBy id).map Outcome.id

/-- The failure that an outcome is, if it is one. -/
def failure? (report : Report) (outcome : Outcome) : Option Failure :=
  outcome.status.error?.map fun error =>
    { id := outcome.id
      name := outcome.name
      wave := outcome.wave
      error := error
      siblings := report.siblings outcome
      skipped := report.skippedBy outcome.id }

/-- The failures, in the order of the waves. -/
def failures (report : Report) : List Failure :=
  report.outcomes.filterMap report.failure?

end Report

def Failure.text (failure : Failure) : String :=
  failure.id.text ++ " `" ++ failure.name ++ "` in wave " ++ toString failure.wave ++ ": "
    ++ failure.error.message

/-- A tick in which systems failed. -/
structure ExecutionFailure where
  /-- The failures, in the order of the waves. -/
  failures : List Failure
  report : Report
  deriving DecidableEq, Inhabited

namespace ExecutionFailure

def ofReport (report : Report) : ExecutionFailure := ⟨report.failures, report⟩

def message (failure : ExecutionFailure) : String :=
  toString failure.failures.length ++ " system(s) failed during tick "
    ++ toString failure.report.tick ++ ": "
    ++ String.intercalate "; " (failure.failures.map Failure.text)

end ExecutionFailure

end TickWaves
