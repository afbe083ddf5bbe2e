import TickWaves.Loop.Rate
import TickWaves.Scheduler.Basic

/-!
# The tick loop

The loop runs one tick after the other, at a fixed rate.  A tick in which systems fail
is counted and the loop goes on; a plan that cannot be made ends the loop with an error.
A cancelled tick ends the loop and is not counted.  With a limit the loop ends after
that many ticks; without one, only for the other two reasons.

One turn of the loop is `TickLoop.turn`; waiting for the next tick is left to whoever
turns it.  `TickLoop.runFor` turns it so many times.
-/

namespace TickWaves

universe u v

structure LoopConfig where
  /-- Ticks per second. -/
  rate : Float
  /-- The number of ticks after which the loop ends; zero for no limit. -/
  maxTicks : Nat
  deriving Inhabited

def LoopConfig.standard : LoopConfig := ⟨60.0, 0⟩

/-- What a run of the loop has counted. -/
structure LoopStats where
  ticks : Nat
  failedTicks : Nat
  deriving DecidableEq, Inhabited

def LoopStats.zero : LoopStats := ⟨0, 0⟩

/-- A scheduler that is ticked. -/
structure TickLoop (β : Type u) where
  tick : Nat
  config : LoopConfig
  budget : Duration
  scheduler : Scheduler β

/-- Where a turn leaves the loop. -/
inductive LoopState
  /-- The next tick is due. -/
  | running (stats : LoopStats)
  /-- The limit is reached. -/
  | complete (stats : LoopStats)
  /-- The tick was cancelled. -/
  | cancelled (stats : LoopStats)
  /-- The plan could not be made. -/
  | broken (dependency : CyclicDependency)
  deriving DecidableEq

/-- The counts, or the error, of a loop that has ended. -/
def LoopState.result? : LoopState → Option (Except CyclicDependency LoopStats)
  | running _ => none
  | complete stats => some (.ok stats)
  | cancelled stats => some (.ok stats)
  | broken dependency => some (.error dependency)

namespace TickLoop

variable {β : Type u} {σ : Type v}

def ofConfig (config : LoopConfig) (scheduler : Scheduler β) :
    Except RateError (TickLoop β) :=
  match budgetOf config.rate with
  | .error error => .error error
  | .ok budget => .ok ⟨0, config, budget, scheduler⟩

/-- Runs one tick with the given simulated time.  The tick is counted whatever comes of
it.  `isCancelled` tells whether a cancellation is asked for. -/
def runTick [Behaviour β σ] (loop : TickLoop β) (dt : Float) (isCancelled : σ → Bool)
    (shared : σ) : Except TickError Report × TickLoop β × σ :=
  let context : TickContext := ⟨loop.tick + 1, dt⟩
  let (result, scheduler, shared) :=
    loop.scheduler.runTick context (fun _ shared => isCancelled shared) shared
  (result, { loop with tick := loop.tick + 1, scheduler := scheduler }, shared)

/-- Counts a tick that ran to its end. -/
def counted (config : LoopConfig) (stats : LoopStats) : LoopState :=
  let stats := { stats with ticks := stats.ticks + 1 }
  if 0 < config.maxTicks ∧ config.maxTicks ≤ stats.ticks then .complete stats
  else .running stats

/-- What the result of a tick means for the loop. -/
def judged (config : LoopConfig) (stats : LoopStats) : Except TickError Report → LoopState
  | .ok report => if report.isCancelled then .cancelled stats else counted config stats
  | .error (.execution failure) =>
      let stats := { stats with failedTicks := stats.failedTicks + 1 }
      if failure.report.isCancelled then .cancelled stats else counted config stats
  | .error (.build dependency) => .broken dependency

/-- What a turn of the loop yields. -/
structure Turn (β : Type u) (σ : Type v) where
  result : Except TickError Report
  state : LoopState
  loop : TickLoop β
  /-- What the systems share, after the tick. -/
  shared : σ

/-- Runs one tick of the loop's own time. -/
def turn [Behaviour β σ] (loop : TickLoop β) (stats : LoopStats) (isCancelled : σ → Bool)
    (shared : σ) : Turn β σ :=
  let (result, after, shared) := loop.runTick loop.budget.toFloat isCancelled shared
  ⟨result, judged loop.config stats result, after, shared⟩

/-- Turns the loop until it ends, at most the given number of times. -/
def runFor [Behaviour β σ] (isCancelled : σ → Bool) :
    (turns : Nat) → TickLoop β → LoopStats → σ → LoopState × TickLoop β × σ
  | 0, loop, stats, shared => (.running stats, loop, shared)
  | turns + 1, loop, stats, shared =>
      let turned := loop.turn stats isCancelled shared
      match turned.state with
      | .running stats => runFor isCancelled turns turned.loop stats turned.shared
      | state => (state, turned.loop, turned.shared)

end TickLoop

end TickWaves
