import TickWaves.Graph.Basic

/-!
# Cycles in the graph

A depth-first search from every node in ascending order, which takes the successors of a
node in ascending order too.  It keeps the path it is on and the nodes it has finished;
an edge back to the path closes a cycle, and the first one closed is reported, starting
at its smallest node.  A graph without cycles is what plans are made from
(`Graph.build`).
-/

namespace TickWaves

universe u

/-- The systems of a cycle, in the order of the edges, which no order can satisfy. -/
structure CyclicDependency where
  /-- The identifiers on the cycle, starting with the first system in the list. -/
  cycle : List SystemId
  deriving DecidableEq

/-- The cycle in words: it ends where it starts. -/
def CyclicDependency.message (dependency : CyclicDependency) : String :=
  "cyclic dependency between systems: "
    ++ String.intercalate " -> "
      ((dependency.cycle ++ dependency.cycle.take 1).map SystemId.text)

namespace Cycle

inductive Search
  /-- A cycle, in the order of its edges. -/
  | cycle (nodes : List Nat)
  /-- No cycle through the finished nodes. -/
  | clear (finished : List Nat)
  deriving DecidableEq

namespace Search

/-- Goes on with the finished nodes, unless a cycle has been found. -/
def andThen (found : Search) (onward : List Nat → Search) : Search :=
  match found with
  | cycle nodes => cycle nodes
  | clear finished => onward finished

@[simp]
theorem cycle_andThen (nodes : List Nat) (onward : List Nat → Search) :
    (cycle nodes).andThen onward = cycle nodes := rfl

@[simp]
theorem clear_andThen (finished : List Nat) (onward : List Nat → Search) :
    (clear finished).andThen onward = onward finished := rfl

end Search

/-- The part of a path from a node on, in the order of the edges.  The path lists its
latest node first. -/
def closedBy (node : Nat) (path : List Nat) : List Nat :=
  (path.takeWhile (· != node) ++ [node]).reverse

/-- Searches from a node that is neither finished nor on the path.  `room` bounds the
number of nodes that the path can still gain. -/
def visit (next : Nat → List Nat) :
    (room : Nat) → (path finished : List Nat) → (node : Nat) → Search
  | 0, _, finished, _ => .clear finished
  | room + 1, path, finished, node =>
      let extended := node :: path
      let found := (next node).foldl
        (fun (found : Search) other => found.andThen fun finished =>
          if other ∈ extended then .cycle (closedBy other extended)
          else if other ∈ finished then .clear finished
          else visit next room extended finished other)
        (.clear finished)
      found.andThen fun finished => .clear (node :: finished)

/-- Searches from every node of a list that is not finished yet. -/
def search (next : Nat → List Nat) (room : Nat) (nodes : List Nat) : Search :=
  nodes.foldl
    (fun (found : Search) node => found.andThen fun finished =>
      if node ∈ finished then .clear finished else visit next room [] finished node)
    (.clear [])

/-- A cycle as seen from its smallest node. -/
def fromLeast (cycle : List Nat) : List Nat :=
  match cycle.min? with
  | none => []
  | some least => cycle.dropWhile (· != least) ++ cycle.takeWhile (· != least)

end Cycle

namespace Graph

variable {β : Type u}

/-- The first cycle that the search closes, starting at its smallest node. -/
def cycle? (graph : Graph) : Option (List Nat) :=
  let table := graph.successorTable
  match Cycle.search (fun node => table.getD node []) graph.size (List.range graph.size) with
  | .cycle nodes => some (Cycle.fromLeast nodes)
  | .clear _ => none

/-- The graph of the given pairs and the tag order, if it has no cycle. -/
def build (systems : List (Descriptor β)) (pairs : List (SystemPair systems.length))
    (tags : TagOrder) : Except CyclicDependency Graph :=
  let graph := assembled systems pairs tags
  match graph.cycle? with
  | some nodes => .error ⟨nodes.map graph.idAt⟩
  | none => .ok graph

end Graph

end TickWaves
