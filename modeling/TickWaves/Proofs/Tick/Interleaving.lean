import TickWaves.Proofs.Tick.Crew
import TickWaves.Proofs.Tick.Rounds

/-!
# Running a plan on threads

A tick is run by the coordinating thread and a crew of workers.  Between two waves the
coordinator looks at the cancel token; then it hands the systems of the wave to the crew,
runs the bound ones itself, fetches the results in the order in which it handed the systems
in, and settles the wave.  `Interleaving.Step` lets any of the threads take its next step.
What bodies do is left open but for a `Conduct`.
-/

namespace TickWaves

universe u

/-- How the systems of a plan may behave. -/
structure Conduct where
  /-- How the body at a position may end, and whether it sets the cancel token. -/
  ends : Nat → Ending → Bool → Prop
  /-- Whether the token may also be set from outside. -/
  interrupts : Prop

def Event.cancels {υ : Type u} : Event υ → Bool
  | .began _ => false
  | .ended _ _ cancels => cancels

namespace Interleaving

/-- Where the coordinating thread is. -/
inductive Phase
  /-- Between two waves. -/
  | gate
  /-- It hands in systems; others it will run itself. -/
  | submitting (pooled bound : List Nat)
  /-- It turns to the systems that it runs itself. -/
  | turning (bound : List Nat)
  /-- It is inside a body. -/
  | inside (node : Nat) (bound : List Nat)
  /-- It waits for the systems that it handed in. -/
  | waiting
  /-- The tick is over. -/
  | finished (isCancelled : Bool)

/-- What the coordinator turns to when a wave begins: a system alone it runs itself. -/
def Phase.opening {β : Type u} (plan : Plan β) : List Nat → Phase
  | [only] => .turning [only]
  | runnable => .submitting (runnable.filter fun node => !plan.isBound node)
      (runnable.filter fun node => plan.isBound node)

def Phase.isOpen : Phase → Bool
  | gate => false
  | finished _ => false
  | _ => true

/-- A tick at one moment. -/
structure State where
  /-- Where the coordinating thread is. -/
  phase : Phase
  /-- The systems whose fate is decided. -/
  settled : List Settled
  /-- The number of waves that are finished. -/
  wavesRun : Nat
  /-- The systems that the wave runs. -/
  runnable : List Nat
  /-- The handed in systems whose results were not fetched. -/
  handles : List (Job Nat)
  /-- The results of the wave so far. -/
  results : List (Nat × TaskResult)
  crew : Crew Nat
  token : Bool
  /-- What was seen of the bodies. -/
  log : List (Event Nat)

namespace State

def start (size : Nat) (token : Bool) : State where
  phase := .gate
  settled := []
  wavesRun := 0
  runnable := []
  handles := []
  results := []
  crew := Crew.ofSize size
  token := token
  log := []

def record (state : State) (event? : Option (Event Nat)) : State :=
  { state with
    token := state.token || event?.any Event.cancels
    log := state.log ++ event?.toList }

/-- A wave begins: what is blocked is skipped. -/
def opened {β : Type u} (state : State) (plan : Plan β) (nodes : List Nat) : State :=
  let runnable := nodes.filter fun node => (plan.blocker? state.settled node).isNone
  { state with
    phase := .opening plan runnable
    settled := state.settled ++ nodes.filterMap (plan.skip? state.settled)
    runnable := runnable }

def closed (state : State) : State :=
  { state with
    phase := .gate
    settled := state.settled ++ state.runnable.filterMap fun node =>
      (state.results.lookup node).map fun result => ⟨node, Plan.statusOf result, none⟩
    wavesRun := state.wavesRun + 1
    runnable := []
    results := [] }

end State

/-- One of the threads takes its next step. -/
inductive Step {β : Type u} (plan : Plan β) (conduct : Conduct) : State → State → Prop
  /-- The token is set before a wave. -/
  | stop {state : State} {wave : Wave} :
      state.phase = .gate → plan.waves[state.wavesRun]? = some wave → state.token = true →
        Step plan conduct state { state with phase := .finished true }
  /-- No wave is left. -/
  | done {state : State} :
      state.phase = .gate → plan.waves[state.wavesRun]? = none →
        Step plan conduct state { state with phase := .finished false }
  /-- The next wave begins. -/
  | start {state : State} {wave : Wave} :
      state.phase = .gate → plan.waves[state.wavesRun]? = some wave → state.token = false →
        Step plan conduct state (state.opened plan wave.nodes)
  | hand {state : State} {node : Nat} {pooled bound : List Nat} :
      state.phase = .submitting (node :: pooled) bound →
        Step plan conduct state
          { state with
            phase := .submitting pooled bound
            handles := state.handles ++ [⟨state.crew.nextSlot, node⟩]
            crew := state.crew.submit node }
  /-- All systems are handed in. -/
  | turn {state : State} {bound : List Nat} :
      state.phase = .submitting [] bound →
        Step plan conduct state { state with phase := .turning bound }
  | enter {state : State} {node : Nat} {bound : List Nat} :
      state.phase = .turning (node :: bound) →
        Step plan conduct state
          ({ state with phase := .inside node bound }.record (some (.began node)))
  | leave {state : State} {node : Nat} {bound : List Nat} {ending : Ending}
      {cancels : Bool} :
      state.phase = .inside node bound → conduct.ends node ending cancels →
        Step plan conduct state
          ({ state with
            phase := .turning bound
            results := state.results ++ [(node, ending.result)] }.record
              (some (.ended node ending cancels)))
  /-- The coordinator has run all that it runs itself. -/
  | wait {state : State} :
      state.phase = .turning [] → Step plan conduct state { state with phase := .waiting }
  /-- The result that is next in turn is fetched from its slot. -/
  | fetch {state : State} {job other : Job Nat} {handles : List (Job Nat)}
      {result : TaskResult} {left right : List (Job Nat × TaskResult)} :
      state.phase = .waiting → state.handles = job :: handles →
        state.crew.replies = left ++ (other, result) :: right → other.slot = job.slot →
          Step plan conduct state
            { state with
              handles := handles
              results := state.results ++ [(job.unit, result)]
              crew := { state.crew with replies := left ++ right } }
  /-- All results are there. -/
  | settle {state : State} :
      state.phase = .waiting → state.handles = [] → Step plan conduct state state.closed
  /-- A worker takes its next step. -/
  | work {state : State} {event? : Option (Event Nat)} {crew : Crew Nat} :
      Crew.Step conduct.ends state.crew event? crew →
        Step plan conduct state ({ state with crew := crew }.record event?)
  /-- The token is set from outside. -/
  | interrupt {state : State} :
      conduct.interrupts → Step plan conduct state { state with token := true }

def Reachable {β : Type u} (plan : Plan β) (conduct : Conduct) (size : Nat) (token : Bool) :
    State → Prop :=
  Relation.ReflTransGen (Step plan conduct) (State.start size token)

end Interleaving

end TickWaves
