import TickWaves.Graph.Pair
import TickWaves.TagOrder

/-!
# The graph of ordering constraints

The nodes are the positions of a list of systems, and an edge says which of two systems
must be done before the other one starts.  A pair in conflict is directed by priority
and, between equals, by position (`Graph.directed`).  The tag order puts every system of
an earlier tag before every system of a later one.  Priority alone orders nothing.

An edge with two reasons is listed once, under the reason from its conflict.
-/

namespace TickWaves

universe u

/-- Why one system goes before another one. -/
inductive Reason
  /-- They conflict and have equal priority, so position decides. -/
  | dataConflict
  /-- Their tags are in order. -/
  | explicitTag
  /-- They conflict, and priority decides. -/
  | priority
  deriving DecidableEq, Inhabited

def Reason.text : Reason → String
  | .dataConflict => "data-conflict"
  | .explicitTag => "explicit-tag"
  | .priority => "priority"

/-- One position goes before another one. -/
structure Edge where
  before : Nat
  after : Nat
  reason : Reason
  deriving DecidableEq, Inhabited

/-- Systems by position, and the constraints between them. -/
structure Graph where
  /-- The identifiers of the systems, by position. -/
  ids : List SystemId
  /-- The edges, in lexicographic order of their positions. -/
  edges : List Edge
  deriving DecidableEq, Inhabited

namespace Graph

variable {β : Type u}

/-- The edge that a pair in conflict makes. -/
def directed (systems : List (Descriptor β)) (pair : SystemPair systems.length) : Edge :=
  let first := systems[pair.first]
  let second := systems[pair.second]
  if second.priority < first.priority then ⟨pair.first, pair.second, .priority⟩
  else if first.priority < second.priority then ⟨pair.second, pair.first, .priority⟩
  else ⟨pair.first, pair.second, .dataConflict⟩

/-- The tags whose systems wait for a system. -/
def laterTags (tags : TagOrder) (descriptor : Descriptor β) : KeySet Tag :=
  (descriptor.tag?.map tags.reachableFrom).getD KeySet.empty

/-- The edges from one position: to each position that a pair in conflict puts after it,
and to each other position whose tag comes later. -/
def edgesFrom (systems : List (Descriptor β)) (conflicts : List Edge) (tags : TagOrder)
    (before : Fin systems.length) : List Edge :=
  let inConflict := conflicts.filter fun edge => edge.before == before.val
  let later := laterTags tags (systems.get before)
  (List.finRange systems.length).filterMap fun (after : Fin systems.length) =>
    match inConflict.find? fun edge => edge.after == after.val with
    | some edge => some edge
    | none =>
        let isLater := (systems.get after).tag?.any fun tag => decide (tag ∈ later)
        if before.val ≠ after.val ∧ isLater then some ⟨before, after, .explicitTag⟩
        else none

/-- The graph of the given pairs and the tag order, which may have cycles. -/
def assembled (systems : List (Descriptor β))
    (pairs : List (SystemPair systems.length)) (tags : TagOrder) : Graph where
  ids := systems.map Descriptor.id
  edges := (List.finRange systems.length).flatMap
    (edgesFrom systems (pairs.map (directed systems)) tags)

def size (graph : Graph) : Nat := graph.ids.length

/-- The identifier at a position; outside the graph, none was assigned. -/
def idAt (graph : Graph) (node : Nat) : SystemId :=
  graph.ids.getD node SystemId.unassigned

/-- The positions that wait for a position, in ascending order. -/
def successors (graph : Graph) (node : Nat) : List Nat :=
  graph.edges.filterMap fun edge => if edge.before = node then some edge.after else none

/-- The positions that a position waits for, in ascending order. -/
def predecessors (graph : Graph) (node : Nat) : List Nat :=
  graph.edges.filterMap fun edge => if edge.after = node then some edge.before else none

def hasEdge (graph : Graph) (before after : Nat) : Bool :=
  graph.edges.any fun edge => edge.before == before && edge.after == after

def successorTable (graph : Graph) : Array (List Nat) :=
  ((List.range graph.size).map graph.successors).toArray

/-- The positions that wait for a position, directly or through others. -/
def descendants (graph : Graph) (node : Nat) : KeySet Nat :=
  KeySet.ofList (Reach.reached graph.successors (List.range graph.size) node)

end Graph

end TickWaves
