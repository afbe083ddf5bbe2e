import TickWaves.Demo.World
import TickWaves.Registry
import TickWaves.Scheduler.Basic

/-!
# The demo systems

Five systems on the demo world: `input` slows the entities down, `integrate` moves them,
`regen` heals them, `frame_counter` counts frames, and `render` looks at the result.
Input comes before physics and physics before rendering.  One of the systems can be made
to fail on every tick, before it does anything.
-/

namespace TickWaves.Demo

universe u

inductive System
  /-- Slows the entities down. -/
  | input
  /-- Moves the entities. -/
  | integrate
  /-- Heals the entities. -/
  | regen
  /-- Counts frames. -/
  | frameCounter
  /-- Looks at the first entity and the health of all. -/
  | render
  deriving DecidableEq, Inhabited

namespace System

/-- The systems, in the order of their registration. -/
def all : List System := [input, integrate, regen, frameCounter, render]

def name : System → String
  | input => "input"
  | integrate => "integrate"
  | regen => "regen"
  | frameCounter => "frame_counter"
  | render => "render"

end System

/-- What a system notes down while it runs. -/
inductive Note
  | frameCounted (tick frame : Nat)
  | frameRendered (tick : Nat) (x y totalHealth : Float)
  | nothingToRender (tick : Nat)
  deriving Inhabited

def Note.source : Note → System
  | .frameCounted _ _ => .frameCounter
  | .frameRendered _ _ _ _ => .render
  | .nothingToRender _ => .render

/-- The world, and what was noted down about it since the notes were last taken. -/
structure Stage where
  world : World
  /-- The notes, in the order in which they were made. -/
  notes : List Note
  deriving Inhabited

namespace Stage

/-- A stage whose notes nobody has made yet. -/
def ofWorld (world : World) : Stage := ⟨world, []⟩

def noted (stage : Stage) (note : Note) : Stage :=
  { stage with notes := stage.notes ++ [note] }

def renderNote (world : World) (tick : Nat) : Note :=
  match world.positions[0]? with
  | none => .nothingToRender tick
  | some first => .frameRendered tick first.x first.y world.totalHealth

end Stage

structure Body where
  system : System
  isFailing : Bool
  deriving DecidableEq, Inhabited

namespace Body

def act (system : System) (context : TickContext) (stage : Stage) : Stage :=
  match system with
  | .input => { stage with world := stage.world.slowed }
  | .integrate => { stage with world := stage.world.moved context.dt }
  | .regen => { stage with world := stage.world.healed context.dt }
  | .frameCounter =>
      let world := stage.world.nextFrame
      { stage with world := world }.noted (.frameCounted context.tick world.frames)
  | .render => stage.noted (Stage.renderNote stage.world context.tick)

/-- The error of a system that is made to fail. -/
def injectedError (system : System) (tick : Nat) : String :=
  "injected failure in `" ++ system.name ++ "` at tick " ++ toString tick

def run (body : Body) (context : TickContext) (stage : Stage) : Reply Stage :=
  if body.isFailing then
    ⟨.failed [injectedError body.system context.tick], stage, Duration.zero⟩
  else ⟨.done, act body.system context stage, Duration.zero⟩

instance : Behaviour Body Stage where
  run body context _ stage := body.run context stage

end Body

def inputTag : Tag := Tag.ofName "input"

def physicsTag : Tag := Tag.ofName "physics"

def renderTag : Tag := Tag.ofName "render"

def renderModule : ModuleId := ModuleId.ofName "demo/render"

/-- Input comes before physics, and physics before rendering. -/
def tagOrder : TagOrder := TagOrder.chain [inputTag, physicsTag, renderTag]

/-- The identifiers of what the demo systems access. -/
structure Components where
  position : ComponentId
  velocity : ComponentId
  health : ComponentId
  frames : ComponentId
  deriving DecidableEq

def Components.register (registry : Registry) :
    Except NameCollision (Components × Registry) := do
  let (position, registry) ← registry.registerComponent World.positionName
  let (velocity, registry) ← registry.registerComponent World.velocityName
  let (health, registry) ← registry.registerComponent World.healthName
  let (frames, registry) ← registry.registerResource World.frameCounterName
  return (⟨position, velocity, health, frames⟩, registry)

def System.descriptor {β : Type u} (system : System) (components : Components) (body : β) :
    Descriptor β :=
  let plain := Descriptor.ofBody system.name body
  match system with
  | input => (plain.writing components.velocity).withTag inputTag |>.mainThread
  | integrate =>
      ((plain.reading components.velocity).writing components.position).withTag physicsTag
  | regen => plain.writing components.health
  | frameCounter => (plain.writing components.frames).withPriority 10
  | render =>
      (((plain.reading components.position).reading components.health).withTag
        renderTag).ownedBy renderModule

/-- Why the demo could not be set up. -/
inductive SetupError
  | names (collision : NameCollision)
  | table (error : TableError)
  deriving DecidableEq

def SetupError.message : SetupError → String
  | .names collision => collision.message
  | .table error => error.message

structure Setup (β : Type u) where
  /-- The identifiers of the systems, in the order of their registration. -/
  ids : List SystemId
  scheduler : Scheduler β
  registry : Registry

def registerAll {β : Type u} :
    List (Descriptor β) → Scheduler β → Except TableError (List SystemId × Scheduler β)
  | [], scheduler => .ok ([], scheduler)
  | descriptor :: descriptors, scheduler => do
      let (id, scheduler) ← scheduler.register descriptor
      let (ids, scheduler) ← registerAll descriptors scheduler
      return (id :: ids, scheduler)

/-- Registers the names, the order of the tags and the systems of the demo.  `embed`
makes a body of the scheduler's kind from a demo body; `failing?` names the system that
is made to fail. -/
def setup {β : Type u} (embed : Body → β) (scheduler : Scheduler β) (registry : Registry)
    (failing? : Option String) : Except SetupError (Setup β) :=
  match Components.register registry with
  | .error collision => .error (.names collision)
  | .ok (components, registry) =>
      let descriptors := System.all.map fun system =>
        system.descriptor components (embed ⟨system, failing? == some system.name⟩)
      match registerAll descriptors (scheduler.setTagOrder tagOrder) with
      | .error error => .error (.table error)
      | .ok (ids, scheduler) => .ok ⟨ids, scheduler, registry⟩

end TickWaves.Demo
