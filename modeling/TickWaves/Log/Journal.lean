import TickWaves.Log.Record
import TickWaves.Loop.Basic

/-!
# What the log tells

The records of the pool, the scheduler, the tick and the loop.  A tick needs no log of
its own while it runs: all that is told of it follows from the scheduler before and
after it and from its result (`tickRecords`), except for what the bodies themselves
write, which is put behind the start of their wave.
-/

namespace TickWaves

universe u

open FieldValue

namespace Journal

/-! ## The pool -/

def poolStarted : Pool → List LogRecord
  | .threads requested label =>
      let pool := Pool.threads requested label
      [⟨.debug, .pool, "worker pool started", [("workers", number pool.workers)]⟩]
  | _ => []

def poolStopped : Pool → List LogRecord
  | .threads _ _ => [⟨.debug, .pool, "worker pool shut down", []⟩]
  | _ => []

/-! ## The scheduler -/

def schedulerMade (pool : Pool) : LogRecord :=
  ⟨.info, .scheduler, "scheduler created", [("workers", number pool.workers)]⟩

def systemRegistered (id : SystemId) (name : String) : LogRecord :=
  ⟨.debug, .scheduler, "system registered", [("system", plain id.text), ("name", quoted name)]⟩

def planMade {β : Type u} (plan : Plan β) : LogRecord :=
  ⟨.info, .scheduler, "rebuilt execution plan",
    [("generation", number plan.generation), ("waves", number plan.waves.length),
     ("systems", number plan.systems.length), ("edges", number plan.precedences.length)]⟩

def planKept (dependency : CyclicDependency) (generation : Nat) : LogRecord :=
  ⟨.error, .scheduler, "plan rebuild failed",
    [("err", plain dependency.message), ("kept_generation", number generation)]⟩

/-- What is told of preparing a plan that may be out of date. -/
def prepared {β : Type u} (before : Scheduler β) :
    Except CyclicDependency (Plan β) → List LogRecord
  | .ok plan => if before.isDirty then [planMade plan] else []
  | .error dependency => [planKept dependency before.plan.generation]

/-! ## The tick -/

def waveStarted (tick wave runnable skipped : Nat) : LogRecord :=
  ⟨.debug, .executor, "dispatching wave",
    [("tick_id", number tick), ("wave", number wave), ("systems", number runnable),
     ("skipped", number skipped)]⟩

def systemFailed? (tick : Nat) (outcome : Outcome) : Option LogRecord :=
  outcome.status.error?.map fun error =>
    ⟨.warning, .executor, "system failed",
      [("tick_id", number tick), ("wave", number outcome.wave),
       ("system", plain outcome.id.text), ("name", quoted outcome.name),
       ("error", plain error.message)]⟩

/-- One wave of a report, and what its bodies wrote. -/
def wave (report : Report) (index : Nat) (written : List LogRecord) : List LogRecord :=
  let members := report.outcomes.filter fun outcome => outcome.wave == index
  let skipped := members.countP fun outcome => outcome.status.isSkipped
  waveStarted report.tick index (members.length - skipped) skipped
    :: written ++ members.filterMap (systemFailed? report.tick)

def tickCancelled (tick wave : Nat) : LogRecord :=
  ⟨.debug, .executor, "tick cancelled", [("tick_id", number tick), ("wave", number wave)]⟩

def tickFinished (report : Report) : LogRecord :=
  ⟨.debug, .scheduler, "tick complete",
    [("tick_id", number report.tick), ("waves", number report.wavesRun),
     ("completed", number report.completedCount), ("cancelled", flag report.isCancelled),
     ("elapsed_us", measured 0)]⟩

/-- The waves of a report and its end; `written` is what the bodies of each wave wrote. -/
def ran (report : Report) (written : Nat → List LogRecord) : List LogRecord :=
  (List.range report.wavesRun).flatMap (fun index => wave report index (written index))
    ++ (if report.isCancelled then [tickCancelled report.tick report.wavesRun] else [])
    ++ [tickFinished report]

/-! ## The loop -/

def loopStarted {β : Type u} (loop : TickLoop β) : LogRecord :=
  ⟨.info, .tickLoop, "starting tick loop",
    [("tick_rate", plain (FloatLayout.field.text loop.config.rate)),
     ("max_ticks", number loop.config.maxTicks),
     ("workers", number loop.scheduler.pool.workers)]⟩

def tickStarted (tick : Nat) (dt : Float) (waves : Nat) : LogRecord :=
  ⟨.debug, .tickLoop, "tick start",
    [("tick_id", number tick), ("dt", plain (FloatLayout.field.text dt)),
     ("waves", number waves)]⟩

/-- The loop learns of a failure. -/
def failureSeen (tick : Nat) (failure : Failure) : LogRecord :=
  ⟨.error, .tickLoop, "system failed",
    [("tick_id", number tick), ("system", plain failure.id.text),
     ("name", plain failure.name), ("wave", number failure.wave),
     ("skipped", number failure.skipped.length), ("error", plain failure.error.message)]⟩

/-- What the loop makes of the result of a tick. -/
def judged (tick : Nat) : Except TickError Report → List LogRecord
  | .ok report =>
      if report.isCancelled then
        [⟨.info, .tickLoop, "tick loop cancelled", [("tick_id", number tick)]⟩]
      else []
  | .error (.execution failure) => failure.failures.map (failureSeen tick)
  | .error (.build dependency) =>
      [⟨.error, .tickLoop, "cannot build execution plan, stopping",
        [("tick_id", number tick),
         ("err", plain (TickError.build dependency).message)]⟩]

/-- What is told of a loop that has reached its limit. -/
def limitReached : LoopState → List LogRecord
  | .complete stats =>
      [⟨.info, .tickLoop, "tick loop complete",
        [("ticks", number stats.ticks), ("failed", number stats.failedTicks)]⟩]
  | _ => []

/-- A tick took longer than its budget. -/
def overran (tick : Nat) (elapsed budget : Duration) : LogRecord :=
  let milliseconds (duration : Duration) := measured (duration.nanoseconds / 1000000)
  ⟨.warning, .tickLoop, "tick exceeded time budget",
    [("tick_id", number tick), ("elapsed_ms", milliseconds elapsed),
     ("budget_ms", milliseconds budget)]⟩

def report? : Except TickError Report → Option Report
  | .ok report => some report
  | .error (.execution failure) => some failure.report
  | .error (.build _) => none

/-- What is told of a tick: its start, the plan, the waves, and what the loop makes of
its result. -/
def tickRecords {β : Type u} (before after : TickLoop β) (result : Except TickError Report)
    (state : LoopState) (written : Report → Nat → List LogRecord) : List LogRecord :=
  let plan :=
    match result with
    | .error (.build dependency) => .error dependency
    | _ => .ok after.scheduler.plan
  tickStarted after.tick after.budget.toFloat before.scheduler.plan.waves.length
    :: prepared before.scheduler plan
    ++ (report? result).elim [] (fun report => ran report (written report))
    ++ judged after.tick result
    ++ limitReached state

end Journal

end TickWaves
