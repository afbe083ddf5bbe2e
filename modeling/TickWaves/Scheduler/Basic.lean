import TickWaves.Scheduler.Config
import TickWaves.System.Table
import TickWaves.Tick.Execution

/-!
# The scheduler

The scheduler owns the table of systems, the order of their tags, the last plan that
could be made, the pool and the run times.  Registering, removing and reordering mark
the plan as out of date; the next tick makes a new one first.  A plan that cannot be
made leaves the old one in place and the mark set, so every later tick tries again until
the constraints can be satisfied.
-/

namespace TickWaves

universe u v

/-- Why a tick has no good report. -/
inductive TickError
  /-- The plan could not be made; nothing was run. -/
  | build (dependency : CyclicDependency)
  | execution (failure : ExecutionFailure)
  deriving DecidableEq

def TickError.message : TickError → String
  | .build dependency => "failed to build execution plan: " ++ dependency.message
  | .execution failure => failure.message

/-- Everything that is known between ticks. -/
structure Scheduler (β : Type u) where
  table : Table β
  tags : TagOrder
  plan : Plan β
  /-- Whether systems or tags changed since the plan was made. -/
  isDirty : Bool
  pool : Pool
  profiler : Profiler

namespace Scheduler

variable {β : Type u} {σ : Type v}

/-- A scheduler without systems that runs on the given pool. -/
def withPool (config : Config) (pool : Pool) : Scheduler β where
  table := Table.empty
  tags := TagOrder.empty
  plan := Plan.empty
  isDirty := true
  pool := pool
  profiler := Profiler.ofSize config.samples

def ofConfig (config : Config) : Scheduler β := withPool config config.pool

def register (scheduler : Scheduler β) (descriptor : Descriptor β) :
    Except TableError (SystemId × Scheduler β) :=
  match scheduler.table.register descriptor with
  | .error error => .error error
  | .ok (id, table) => .ok (id, { scheduler with table := table, isDirty := true })

/-- Lets go of everything kept for systems that are no longer registered. -/
def forget (scheduler : Scheduler β) (id : SystemId) : Scheduler β :=
  { scheduler with
    plan := scheduler.plan.release id
    profiler := scheduler.profiler.forget id }

def unregister (scheduler : Scheduler β) (id : SystemId) :
    Except TableError (Scheduler β) :=
  match scheduler.table.unregister id with
  | .error error => .error error
  | .ok (_, table) =>
      .ok { scheduler.forget id with table := table, isDirty := true }

/-- Removes all systems of a module and returns their identifiers. -/
def unregisterModule (scheduler : Scheduler β) (owner : ModuleId) :
    Except TableError (List SystemId × Scheduler β) :=
  match scheduler.table.unregisterModule owner with
  | .error error => .error error
  | .ok (removed, table) =>
      .ok (removed, { removed.foldl forget scheduler with table := table, isDirty := true })

def setTagOrder (scheduler : Scheduler β) (tags : TagOrder) : Scheduler β :=
  if tags = scheduler.tags then scheduler
  else { scheduler with tags := tags, isDirty := true }

def rebuild (scheduler : Scheduler β) : Except CyclicDependency (Scheduler β) :=
  match Plan.build scheduler.table.toList scheduler.tags (scheduler.plan.generation + 1) with
  | .error dependency => .error dependency
  | .ok plan => .ok { scheduler with plan := plan, isDirty := false }

/-- Makes a new plan if the one at hand is out of date. -/
def prepare (scheduler : Scheduler β) : Except CyclicDependency (Scheduler β) :=
  if scheduler.isDirty then scheduler.rebuild else .ok scheduler

def execute [Behaviour β σ] (scheduler : Scheduler β) (context : TickContext)
    (halt : Nat → σ → Bool) (shared : σ) : Report × Scheduler β × σ :=
  let (report, workspace) :=
    scheduler.plan.execute scheduler.pool context halt ⟨shared, scheduler.profiler⟩
  (report, { scheduler with profiler := workspace.profiler }, workspace.shared)

/-- A report as the result of its tick: an error if a system failed. -/
def resultOf (report : Report) : Except TickError Report :=
  let failure := ExecutionFailure.ofReport report
  if failure.failures.isEmpty then .ok report else .error (.execution failure)

/-- Runs one tick, which may be cancelled before each wave.  If the plan cannot be made,
nothing changes. -/
def runTick [Behaviour β σ] (scheduler : Scheduler β) (context : TickContext)
    (halt : Nat → σ → Bool) (shared : σ) : Except TickError Report × Scheduler β × σ :=
  match scheduler.prepare with
  | .error dependency => (.error (.build dependency), scheduler, shared)
  | .ok prepared =>
      let (report, scheduler, shared) := prepared.execute context halt shared
      (resultOf report, scheduler, shared)

def summary (scheduler : Scheduler β) : String :=
  "Scheduler \x7b systems: " ++ toString scheduler.table.size
    ++ ", generation: " ++ toString scheduler.plan.generation
    ++ ", dirty: " ++ (if scheduler.isDirty then "true" else "false")
    ++ ", workers: " ++ toString scheduler.pool.workers ++ ", .. \x7d"

end Scheduler

end TickWaves
