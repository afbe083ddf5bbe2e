import TickWaves.Demo.Options
import TickWaves.Demo.Systems
import TickWaves.Log.Journal
import TickWaves.Plan.Text

/-!
# The demo program

The program sets up the demo in a scheduler and either shows the plan or ticks it until
the loop ends.  It is started once (`Options.start`) and then ticked (`Running.tick`); in
between, whoever runs it waits for the next tick (`Running.rest`).  Each of these yields
the lines that are put out and says whether the program goes on.
-/

namespace TickWaves.Demo

open FieldValue

/-- One thing that the program puts out. -/
inductive Line
  /-- A record of the log, if it is kept. -/
  | record (record : LogRecord)
  /-- A text that is always put out. -/
  | text (text : String)
  deriving DecidableEq, Inhabited

/-- How the program ends. -/
inductive Ending
  | done
  | failed (message : String)
  /-- It was asked for what no machine can do, or with a filter that cannot be read. -/
  | brokenOff
  /-- So many bytes were not there. -/
  | outOfMemory (bytes : Nat)
  deriving DecidableEq, Inhabited

namespace Ending

/-- The exit code that tells how the program has ended; there is none if it has run out of
memory. -/
def exitCode? : Ending → Option Nat
  | done => some 0
  | failed _ => some 1
  | brokenOff => some 101
  | outOfMemory _ => none

def message? : Ending → Option String
  | failed message => some ("Error: " ++ message)
  | outOfMemory bytes => some ("memory allocation of " ++ toString bytes ++ " bytes failed")
  | _ => none

def ofShortage : Machine.Shortage → Ending
  | .addresses => brokenOff
  | .memory bytes => outOfMemory bytes
  | .threads => failed "failed to start worker pool"

def ofStartFault : StartFault → Ending
  | .shortage shortage => ofShortage shortage
  | .badName => brokenOff

/-- Whether the program stops its pool before it ends in this way. -/
def stopsPool : Ending → Bool
  | outOfMemory _ => false
  | _ => true

end Ending

/-- The program between two ticks. -/
structure Running where
  /-- The demo systems, in the order of their registration. -/
  ids : List SystemId
  loop : TickLoop Body
  stats : LoopStats
  overruns : Nat
  stage : Stage

/-- Where the program is. -/
inductive State
  /-- The next tick is due. -/
  | running (running : Running)
  | ended (ending : Ending)

def Note.record : Note → LogRecord
  | .frameCounted tick frame =>
      ⟨.trace, .systems, "frame counted", [("tick_id", number tick), ("frame", number frame)]⟩
  | .frameRendered tick x y totalHealth =>
      ⟨.trace, .systems, "frame rendered",
        [("tick_id", number tick), ("x", plain (FloatLayout.field.text x)),
         ("y", plain (FloatLayout.field.text y)),
         ("total_health", plain (FloatLayout.field.text totalHealth))]⟩
  | .nothingToRender tick =>
      ⟨.trace, .systems, "empty world, nothing to render", [("tick_id", number tick)]⟩

/-- The notes of the systems in one wave of a report. -/
def notedIn (notes : List Note) (report : Report) (wave : Nat) : List LogRecord :=
  let names := (report.outcomes.filter fun outcome => outcome.wave == wave).map Outcome.name
  (notes.filter fun note => names.contains note.source.name).map Note.record

namespace Setup

def namesRecord (made : Setup Body) : LogRecord :=
  ⟨.debug, .systems, "component types registered", [("types", number made.registry.size)]⟩

def systemRecord? (made : Setup Body) (id : SystemId) : Option LogRecord :=
  (made.scheduler.table.get? id).map fun descriptor =>
    Journal.systemRegistered id descriptor.name

def demoRecord (made : Setup Body) (entities : Nat) : LogRecord :=
  ⟨.info, .program, "demo registered",
    [("systems", number made.ids.length), ("entities", number entities)]⟩

/-- What is told of setting up the demo. -/
def records (made : Setup Body) (entities : Nat) : List LogRecord :=
  made.namesRecord :: made.ids.filterMap made.systemRecord? ++ [made.demoRecord entities]

end Setup

namespace Running

/-- How long a system takes on average, if it is registered and has run. -/
def timing? (running : Running) (id : SystemId) : Option LogRecord :=
  let scheduler := running.loop.scheduler
  match scheduler.table.get? id, scheduler.profiler.average id with
  | some descriptor, .ok (some average) =>
      some ⟨.info, .program, "system timing",
        [("system", plain id.text), ("name", quoted descriptor.name),
         ("avg_us", measured (average.nanoseconds / 1000))]⟩
  | _, _ => none

def countsRecord (running : Running) : LogRecord :=
  ⟨.info, .program, "engine shut down",
    [("ticks", number running.stats.ticks), ("last_tick", number running.loop.tick),
     ("failed_ticks", number running.stats.failedTicks),
     ("overruns", measured running.overruns), ("frames", number running.stage.world.frames)]⟩

/-- What is told when the loop has ended without an error. -/
def closing (running : Running) : List LogRecord :=
  running.ids.filterMap running.timing? ++ [running.countsRecord]

/-- Where the program is after a turn of the loop, and what is told of its end. -/
def concluded (running : Running) (state : LoopState) : List LogRecord × State :=
  let stopped := Journal.poolStopped running.loop.scheduler.pool
  match state with
  | .running stats => ([], .running { running with stats := stats })
  | .complete stats =>
      ({ running with stats := stats }.closing ++ stopped, .ended .done)
  | .cancelled stats =>
      ({ running with stats := stats }.closing ++ stopped, .ended .done)
  | .broken dependency => (stopped, .ended (.failed (TickError.build dependency).message))

def tick (running : Running) : List Line × State :=
  let before := { running.stage with notes := [] }
  let turned := running.loop.turn running.stats (fun _ => false) before
  let notes := turned.shared.notes
  let told :=
    Journal.tickRecords running.loop turned.loop turned.result turned.state
      (notedIn notes)
  let after := { running with loop := turned.loop, stage := { turned.shared with notes := [] } }
  let (rest, state) := after.concluded turned.state
  ((told ++ rest).map Line.record, state)

/-- What happens until the next tick, after one that took so long: either there is time
to wait, or the tick overran its budget. -/
def rest (running : Running) (elapsed : Duration) : Duration × List Line × Running :=
  let budget := running.loop.budget
  if elapsed.nanoseconds < budget.nanoseconds then
    (⟨budget.nanoseconds - elapsed.nanoseconds⟩, [], running)
  else
    (Duration.zero,
      [.record (Journal.overran running.loop.tick elapsed budget)],
      { running with overruns := running.overruns + 1 })

end Running

namespace Options

def config (options : Options) (cores : Nat) : Config :=
  match options.workers? with
  | some workers => (Config.ofCores cores).withWorkers workers
  | none => Config.ofCores cores

def shown (scheduler : Scheduler Body) : List Line × Ending :=
  match scheduler.prepare with
  | .ok prepared =>
      ((Journal.prepared scheduler (.ok prepared.plan)).map Line.record
        ++ [.text prepared.plan.document.pretty], .done)
  | .error dependency =>
      ((Journal.prepared scheduler (.error dependency)).map Line.record,
        .failed dependency.message)

/-- What comes after the demo is set up. -/
def proceeded (options : Options) (made : Setup Body) (world : World) : List Line × State :=
  let stopped := (Journal.poolStopped made.scheduler.pool).map Line.record
  if options.dumpsPlan then
    let (lines, ending) := shown made.scheduler
    (lines ++ stopped, .ended ending)
  else
    match TickLoop.ofConfig ⟨options.rate, options.maxTicks⟩ made.scheduler with
    | .error error => (stopped, .ended (.failed error.message))
    | .ok loop =>
        ([.record (Journal.loopStarted loop)],
          .running ⟨made.ids, loop, LoopStats.zero, 0, Stage.ofWorld world⟩)

/-- Sets the demo up on a scheduler and goes on from there. -/
def setUp (options : Options) (scheduler : Scheduler Body) : List Line × State :=
  let world := World.withEntities options.entities
  match setup id scheduler Registry.empty options.failing? with
  | .error error =>
      ((Journal.poolStopped scheduler.pool).map Line.record, .ended (.failed error.message))
  | .ok made =>
      let (lines, state) := options.proceeded made world
      ((made.records world.size).map Line.record ++ lines, state)

def endedWith (pool : Pool) (ending : Ending) : List Line × State :=
  ((if ending.stopsPool then Journal.poolStopped pool else []).map Line.record, .ended ending)

/-- What comes after the pool is started. -/
def begun (options : Options) (machine : Machine) (config : Config) : List Line × State :=
  let scheduler : Scheduler Body := Scheduler.ofConfig config
  let (lines, state) :=
    match World.shortage? machine options.entities with
    | none => options.setUp scheduler
    | some shortage => endedWith scheduler.pool (.ofShortage shortage)
  ((Journal.poolStarted scheduler.pool
    ++ [Journal.schedulerMade scheduler.pool]).map Line.record ++ lines, state)

/-- Starts the program on a machine.  A pool of which some threads have been started is
stopped again. -/
def start (options : Options) (machine : Machine) : List Line × State :=
  let config := options.config machine.cores
  if !isPositiveRate options.rate then
    ([], .ended (.failed "--tick-rate must be a positive number"))
  else
    match config.pool.startFault? machine with
    | none => options.begun machine config
    | some (.shortage .threads) => endedWith config.pool (.ofShortage .threads)
    | some fault => ([], .ended (.ofStartFault fault))

end Options

end TickWaves.Demo
