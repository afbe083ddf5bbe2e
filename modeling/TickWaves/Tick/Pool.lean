import TickWaves.Machine
import TickWaves.Tick.Body

/-!
# Worker pools

A pool takes units of work and answers each with its result.  An inline pool runs a unit
at once on the thread that hands it in; a pool of threads runs it on a worker; a closed
pool runs nothing.  A panic ends the unit and nothing else.

Units that are handed in together are independent of each other, so running them in the
order in which they were handed in is one of the orders that workers may choose, and the
one taken here.
-/

namespace TickWaves

universe u

/-- Why a unit of work has no good result. -/
inductive TaskError
  /-- The unit returned an error, with its causes. -/
  | failed (causes : List String)
  | panicked (message : String)
  /-- The pool closed before the unit was run. -/
  | disconnected
  deriving DecidableEq, Inhabited

namespace TaskError

def chainText (causes : List String) : String := String.intercalate ": " causes

def message : TaskError → String
  | failed causes => chainText causes
  | panicked message => "task panicked: " ++ message
  | disconnected => "worker pool shut down before the task completed"

end TaskError

abbrev TaskResult := Except TaskError Unit

/-- What the ending of a body means for the unit that ran it. -/
def Ending.result : Ending → TaskResult
  | .done => .ok ()
  | .failed causes => .error (.failed causes)
  | .panicked payload => .error (.panicked payload.message)

/-- A unit of work on a state: told its thread, it ends in some way. -/
abbrev Work (τ : Type u) := Lane → τ → Ending × τ

def Work.runOn {τ : Type u} (work : Work τ) (lane : Lane) (state : τ) : TaskResult × τ :=
  let (ending, state) := work lane state
  (ending.result, state)

/-- Where units of work are run. -/
inductive Pool
  /-- On the thread that hands them in. -/
  | inline
  /-- On worker threads, whose names start with the label. -/
  | threads (requested : Nat) (label : String)
  /-- Nowhere: the pool has shut down. -/
  | closed
  deriving DecidableEq, Inhabited

inductive StartFault
  | shortage (shortage : Machine.Shortage)
  /-- The name of a thread has a NUL character. -/
  | badName
  deriving DecidableEq, Inhabited

namespace Pool

/-- The number of units that can run at one time. -/
def workers : Pool → Nat
  | inline => 1
  | threads requested _ => max requested 1
  | closed => 0

def threadBytes : Nat := 24

def startFault? (machine : Machine) : Pool → Option StartFault
  | threads requested label =>
      match machine.shortage? requested threadBytes with
      | some shortage => some (.shortage shortage)
      | none =>
          if label.toList.contains '\x00' then some .badName
          else if machine.threads < requested then some (.shortage .threads)
          else none
  | _ => none

/-- The thread that runs the units, if they are run at all. -/
def lane? : Pool → Option Lane
  | inline => some .coordinator
  | threads _ _ => some .worker
  | closed => none

variable {τ : Type u}

/-- Hands in one unit of work and waits for its result. -/
def submit (pool : Pool) (work : Work τ) (state : τ) : TaskResult × τ :=
  match pool.lane? with
  | some lane => work.runOn lane state
  | none => (.error .disconnected, state)

/-- Hands in units of work and waits for all of them; the results are in the order of
the units. -/
def submitAll (pool : Pool) : List (Work τ) → τ → List TaskResult × τ
  | [], state => ([], state)
  | work :: works, state =>
      let (result, state) := pool.submit work state
      let (results, state) := pool.submitAll works state
      (result :: results, state)

/-- Runs units of work on the calling thread, one after the other. -/
def runAll : List (Work τ) → τ → List TaskResult × τ
  | [], state => ([], state)
  | work :: works, state =>
      let (result, state) := work.runOn .coordinator state
      let (results, state) := runAll works state
      (result :: results, state)

end Pool

end TickWaves
