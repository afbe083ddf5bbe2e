import TickWaves.Graph.Cycle
import TickWaves.Graph.Layers

/-!
# Execution plans

A plan puts every system of a list into one wave.  Systems of a wave may run side by
side; the waves run one after the other.  A plan also keeps which systems each system
waits for, so that a failure can be followed, and the bodies to run.  A body can be
released while the layout of the plan stays (`Plan.release`).
-/

namespace TickWaves

universe u

/-- Systems that may run side by side. -/
structure Wave where
  /-- The identifiers of the systems, in the order of the list. -/
  members : List SystemId
  /-- The positions of the systems, in the same order. -/
  nodes : List Nat
  deriving DecidableEq, Inhabited

namespace Wave

def size (wave : Wave) : Nat := wave.members.length

def isEmpty (wave : Wave) : Bool := wave.members.isEmpty

def contains (wave : Wave) (id : SystemId) : Bool := decide (id ∈ wave.members)

end Wave

/-- A system as the plan runs it. -/
structure PlannedSystem (β : Type u) where
  id : SystemId
  name : String
  wave : Nat
  onMainThread : Bool
  predecessors : List Nat
  /-- What runs, until it is released. -/
  body? : Option β

/-- An edge between identifiers. -/
structure Precedence where
  before : SystemId
  after : SystemId
  reason : Reason
  deriving DecidableEq, Inhabited

structure Plan (β : Type u) where
  /-- The number of plans that were made before and with this one. -/
  generation : Nat
  /-- The waves, in the order in which they run. -/
  waves : List Wave
  /-- The systems, in the order of the list. -/
  systems : List (PlannedSystem β)
  precedences : List Precedence

namespace Graph

/-- The edges by identifier, in the order of the positions. -/
def precedences (graph : Graph) : List Precedence :=
  graph.edges.map fun edge =>
    ⟨graph.idAt edge.before, graph.idAt edge.after, edge.reason⟩

end Graph

namespace Plan

variable {β : Type u}

/-- The plan before the first one is made. -/
def empty : Plan β := ⟨0, [], [], []⟩

instance : Inhabited (Plan β) := ⟨empty⟩

def layerOf (layers : List (List Nat)) (node : Nat) : Nat :=
  (layers.findIdx? fun layer => layer.contains node).getD 0

/-- The plan whose constraints are the edges of a graph over the systems. -/
def ofGraph (systems : List (Descriptor β)) (graph : Graph) (generation : Nat) :
    Plan β :=
  let layers := graph.layers
  { generation := generation
    waves := layers.map fun nodes => ⟨nodes.map graph.idAt, nodes⟩
    systems := systems.zipIdx.map fun (descriptor, node) =>
      { id := descriptor.id
        name := descriptor.name
        wave := layerOf layers node
        onMainThread := descriptor.onMainThread
        predecessors := graph.predecessors node
        body? := some descriptor.body }
    precedences := graph.precedences }

/-- The plan of a list of systems, unless their constraints have a cycle. -/
def build (systems : List (Descriptor β)) (tags : TagOrder) (generation : Nat) :
    Except CyclicDependency (Plan β) :=
  match Graph.build systems (SystemPair.conflicting systems) tags with
  | .error dependency => .error dependency
  | .ok graph => .ok (ofGraph systems graph generation)

/-- The system with an identifier; of several, the last one. -/
def system? (plan : Plan β) (id : SystemId) : Option (PlannedSystem β) :=
  plan.systems.reverse.find? fun system => system.id == id

def waveOf? (plan : Plan β) (id : SystemId) : Option Nat :=
  (plan.system? id).map PlannedSystem.wave

/-- Whether the body of a system is still held. -/
def holdsBody (plan : Plan β) (id : SystemId) : Bool :=
  (plan.system? id).any fun system => system.body?.isSome

/-- The list of systems without the body of one of them; of several with the
identifier, the last one loses its body. -/
def released (id : SystemId) : List (PlannedSystem β) → List (PlannedSystem β)
  | [] => []
  | system :: rest =>
      if rest.any fun other => other.id == id then system :: released id rest
      else if system.id = id then { system with body? := none } :: rest
      else system :: rest

/-- Drops the body of a system.  The layout stays. -/
def release (plan : Plan β) (id : SystemId) : Plan β :=
  { plan with systems := released id plan.systems }

def waveIds (plan : Plan β) : List (List SystemId) :=
  plan.waves.map Wave.members

end Plan

end TickWaves
