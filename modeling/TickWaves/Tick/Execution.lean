import TickWaves.Plan.Basic
import TickWaves.Tick.Report
import TickWaves.Time.Profiler

/-!
# Running a plan for one tick

The waves run in order, and a wave begins only when the one before it is finished.  A
system is skipped if a system that it waits for failed or was skipped itself, so a
failure stops exactly what depends on it.  Before each wave the tick may be cancelled;
a wave that has begun is always finished (`Plan.execute`).

A wave with a single system left runs it on the coordinating thread.  Otherwise the
systems bound to that thread stay there, and all others go to the pool.
-/

namespace TickWaves

universe u v

/-- What a tick works on. -/
structure Workspace (σ : Type v) where
  shared : σ
  profiler : Profiler

/-- A system whose fate in the tick is decided. -/
structure Settled where
  node : Nat
  status : Status
  elapsed? : Option Duration
  deriving DecidableEq, Inhabited

namespace Settled

def find? (settled : List Settled) (node : Nat) : Option Settled :=
  settled.find? fun entry => entry.node == node

end Settled

/-- How far a tick has come. -/
structure Progress (σ : Type v) where
  settled : List Settled
  wavesRun : Nat
  isCancelled : Bool
  workspace : Workspace σ

variable {β : Type u} {σ : Type v}

namespace PlannedSystem

/-- The unit of work that runs a system: it records how long the body took, unless the
body panicked.  A system whose body was released fails. -/
def work [Behaviour β σ] (system : PlannedSystem β) (context : TickContext) :
    Work (Workspace σ) := fun lane workspace =>
  match system.body? with
  | none => (.failed ["system `" ++ system.name ++ "` was unregistered"], workspace)
  | some body =>
      let reply := Behaviour.run body context lane workspace.shared
      match reply.ending with
      | .panicked payload => (.panicked payload, { workspace with shared := reply.shared })
      | ending =>
          (ending, ⟨reply.shared, workspace.profiler.record system.id reply.took⟩)

end PlannedSystem

namespace Plan

def systemsAt (plan : Plan β) (nodes : List Nat) : List (Nat × PlannedSystem β) :=
  nodes.filterMap fun node => plan.systems[node]?.map (node, ·)

/-- The failed system that keeps a position from running: the first system it waits for
that failed, or the one that got the first such system skipped. -/
def blocker? (plan : Plan β) (settled : List Settled) (node : Nat) : Option SystemId :=
  match plan.systems[node]? with
  | none => none
  | some system => system.predecessors.findSome? fun predecessor =>
      match (Settled.find? settled predecessor).map Settled.status with
      | some (.failed _) => plan.systems[predecessor]?.map PlannedSystem.id
      | some (.skipped blockedBy) => some blockedBy
      | _ => none

/-- Runs some systems of a wave and waits for all of them.  Each result stands with the
position of its system, in the order of the positions given. -/
def dispatch [Behaviour β σ] (plan : Plan β) (pool : Pool) (context : TickContext)
    (nodes : List Nat) (workspace : Workspace σ) :
    List (Nat × TaskResult) × Workspace σ :=
  let work (entry : Nat × PlannedSystem β) := entry.2.work context
  match plan.systemsAt nodes with
  | [only] =>
      let (result, workspace) := (work only).runOn .coordinator workspace
      ([(only.1, result)], workspace)
  | entries =>
      let bound := entries.filter fun entry => entry.2.onMainThread
      let pooled := entries.filter fun entry => !entry.2.onMainThread
      let (pooledResults, workspace) := pool.submitAll (pooled.map work) workspace
      let (boundResults, workspace) := Pool.runAll (bound.map work) workspace
      let results := (bound.map Prod.fst).zip boundResults
        ++ (pooled.map Prod.fst).zip pooledResults
      (nodes.filterMap fun node => (results.lookup node).map (node, ·), workspace)

def statusOf : TaskResult → Status
  | .ok _ => .completed
  | .error error => .failed (SystemError.ofTask error)

def isPanic : TaskResult → Bool
  | .error (.panicked _) => true
  | _ => false

/-- The fate of a system whose unit has a result.  Its run time is the latest sample of
the profiler, except after a panic. -/
def settle (plan : Plan β) (profiler : Profiler) (node : Nat) (result : TaskResult) :
    Settled where
  node := node
  status := statusOf result
  elapsed? :=
    if isPanic result then none
    else plan.systems[node]?.bind fun system => profiler.last? system.id

/-- Runs one wave: skips what is blocked and dispatches the rest. -/
def runWave [Behaviour β σ] (plan : Plan β) (pool : Pool) (context : TickContext)
    (nodes : List Nat) (settled : List Settled) (workspace : Workspace σ) :
    List Settled × Workspace σ :=
  let blocked := nodes.filterMap fun node =>
    (plan.blocker? settled node).map fun id => (⟨node, .skipped id, none⟩ : Settled)
  let runnable := nodes.filter fun node => (plan.blocker? settled node).isNone
  let (results, workspace) := plan.dispatch pool context runnable workspace
  let ran := results.map fun (node, result) => plan.settle workspace.profiler node result
  (settled ++ blocked ++ ran, workspace)

/-- Runs the waves that are left, of which `index` is the first, until the tick is
cancelled.  `halt` says whether a cancellation is seen before a wave. -/
def runWaves [Behaviour β σ] (plan : Plan β) (pool : Pool) (context : TickContext)
    (halt : Nat → σ → Bool) :
    (waves : List Wave) → (index : Nat) → List Settled → Workspace σ → Progress σ
  | [], index, settled, workspace => ⟨settled, index, false, workspace⟩
  | wave :: waves, index, settled, workspace =>
      if halt index workspace.shared then ⟨settled, index, true, workspace⟩
      else
        let (settled, workspace) :=
          plan.runWave pool context wave.nodes settled workspace
        plan.runWaves pool context halt waves (index + 1) settled workspace

/-- The outcome of a position: what is not decided by now was cancelled. -/
def outcomeOf (settled : List Settled) (wave node : Nat) (system : PlannedSystem β) :
    Outcome :=
  let entry := Settled.find? settled node
  { id := system.id
    name := system.name
    wave := wave
    status := (entry.map Settled.status).getD .cancelled
    elapsed? := entry.bind Settled.elapsed? }

/-- The outcomes of all systems, in the order of the waves. -/
def outcomes (plan : Plan β) (settled : List Settled) : List Outcome :=
  plan.waves.zipIdx.flatMap fun (wave, index) =>
    (plan.systemsAt wave.nodes).map fun (node, system) =>
      outcomeOf settled index node system

def execute [Behaviour β σ] (plan : Plan β) (pool : Pool) (context : TickContext)
    (halt : Nat → σ → Bool) (workspace : Workspace σ) : Report × Workspace σ :=
  let progress := plan.runWaves pool context halt plan.waves 0 [] workspace
  ({ tick := context.tick
     generation := plan.generation
     outcomes := plan.outcomes progress.settled
     wavesRun := progress.wavesRun
     isCancelled := progress.isCancelled },
   progress.workspace)

end Plan

end TickWaves
