import TickWaves.Ident
import TickWaves.Machine

/-!
# The demo world

Entities are numbered, and every component type is a column with one value per entity.
The columns may differ in length.  A counter of frames stands beside them as a resource.
-/

namespace TickWaves.Demo

structure Position where
  x : Float
  y : Float
  deriving Inhabited

structure Velocity where
  /-- The change of the first coordinate per second. -/
  dx : Float
  dy : Float
  deriving Inhabited

/-- The columns and the counter. -/
structure World where
  positions : Array Position
  velocities : Array Velocity
  health : Array Float
  frames : Nat
  deriving Inhabited

namespace World

def positionName : String := "Position"

def velocityName : String := "Velocity"

def healthName : String := "Health"

def frameCounterName : String := "FrameCounter"

def fullHealth : Float := 100.0

/-- A world of entities at the origin, in full health, each faster than the one before. -/
def withEntities (count : Nat) : World where
  positions := Array.replicate count ⟨0.0, 0.0⟩
  velocities := (Array.range count).map fun entity => ⟨1.0 + Float.ofNat entity, 0.5⟩
  health := Array.replicate count fullHealth
  frames := 0

/-- The bytes of a position, and of a velocity. -/
def pairBytes : Nat := 16

/-- What a machine lacks for so many entities. -/
def shortage? (machine : Machine) (count : Nat) : Option Machine.Shortage :=
  machine.shortage? count pairBytes

def size (world : World) : Nat := world.positions.size

/-- The share of its velocity that an entity keeps per tick. -/
def drag : Float := 0.99

/-- The health that an entity gains per second. -/
def regeneration : Float := 2.0

def slowed (world : World) : World :=
  { world with
    velocities := world.velocities.map fun velocity =>
      ⟨velocity.dx * drag, velocity.dy * drag⟩ }

def moved (world : World) (dt : Float) : World :=
  { world with
    positions := world.positions.mapIdx fun entity position =>
      match world.velocities[entity]? with
      | some velocity => ⟨position.x + velocity.dx * dt, position.y + velocity.dy * dt⟩
      | none => position }

/-- The smaller of a number and a bound; the bound, if it is no number. -/
def atMost (bound value : Float) : Float := if value < bound then value else bound

def healed (world : World) (dt : Float) : World :=
  { world with
    health := world.health.map fun health => atMost fullHealth (health + regeneration * dt) }

def nextFrame (world : World) : World := { world with frames := world.frames + 1 }

def totalHealth (world : World) : Float :=
  world.health.foldl (fun total health => total + health) 0.0

end World

end TickWaves.Demo
