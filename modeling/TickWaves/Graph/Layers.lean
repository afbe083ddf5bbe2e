import TickWaves.Graph.Basic

/-!
# Layers of the graph

The nodes are taken off from the end.  The last layer holds the nodes without successors.
Every other node counts its successors that are in no layer yet, and once it has counted
down to zero it goes into the layer before the one that freed it (`Layers.countDown?`).  So
every node is in the latest layer that its edges allow, and the number of layers is the
length of the longest path.
-/

namespace TickWaves

namespace Layers

/-- How many edges the counters have still to count down. -/
def pending (counters : List Nat) : Nat :=
  counters.foldr (· + ·) 0

theorem pending_cons (count : Nat) (counters : List Nat) :
    pending (count :: counters) = count + pending counters :=
  rfl

/-- What is kept while a layer frees the nodes of the one before it. -/
structure Countdown where
  /-- For each node, how many of its successors are in no layer yet. -/
  counters : List Nat
  /-- The nodes that the layer has freed. -/
  freed : KeySet Nat

namespace Countdown

/-- What is still to be taken, and what has been freed for it. -/
def remaining (countdown : Countdown) : Nat :=
  pending countdown.counters + countdown.freed.toList.length

/-- Sets the counter of a node to what is left, which frees the node if that is nothing. -/
def lowered (countdown : Countdown) (node left : Nat) : Countdown where
  counters := countdown.counters.set node left
  freed := if left = 0 then countdown.freed.insert node else countdown.freed

/-- Takes one from the counter of a node.  There is nothing to take from a counter at zero,
nor from a node that has none. -/
def lower? (countdown : Countdown) (node : Nat) : Option Countdown :=
  match countdown.counters[node]? with
  | some (left + 1) => some (countdown.lowered node left)
  | some 0 => none
  | none => none

/-- Takes one for every edge into a node, which the table lists by where they come from. -/
def place? (table : Array (List Nat)) (countdown : Countdown) (node : Nat) :
    Option Countdown :=
  table[node]?.bind fun befores => befores.foldlM lower? countdown

theorem pending_set_add {counters : List Nat} {node count : Nat} (left : Nat)
    (hnode : counters[node]? = some count) :
    pending (counters.set node left) + count = pending counters + left := by
  induction counters generalizing node with
  | nil => simp at hnode
  | cons head counters ih =>
      cases node with
      | zero =>
          obtain rfl : head = count := by simpa using hnode
          simp only [List.set_cons_zero, pending_cons]
          omega
      | succ node =>
          have htail := ih (show counters[node]? = some count by simpa using hnode)
          simp only [List.set_cons_succ, pending_cons]
          omega

theorem remaining_le_of_lower? {countdown later : Countdown} {node : Nat}
    (hlower : countdown.lower? node = some later) :
    later.remaining ≤ countdown.remaining := by
  rw [lower?] at hlower
  split at hlower
  case h_1 left hcount =>
    obtain rfl := Option.some.inj hlower
    have hsum := pending_set_add left hcount
    simp only [remaining, lowered]
    split
    · have hlength := countdown.freed.length_insert_le node
      omega
    · omega
  case h_2 => cases hlower
  case h_3 => cases hlower

theorem remaining_le_of_foldlM {step : Countdown → Nat → Option Countdown}
    (hstep : ∀ countdown node later, step countdown node = some later →
      later.remaining ≤ countdown.remaining)
    {nodes : List Nat} {countdown later : Countdown}
    (hfold : nodes.foldlM step countdown = some later) :
    later.remaining ≤ countdown.remaining := by
  induction nodes generalizing countdown with
  | nil =>
      obtain rfl := Option.some.inj hfold
      exact Nat.le_refl _
  | cons node nodes ih =>
      rw [List.foldlM_cons] at hfold
      obtain ⟨middle, hmiddle, hrest⟩ := Option.bind_eq_some_iff.mp hfold
      exact Nat.le_trans (ih hrest) (hstep countdown node middle hmiddle)

theorem remaining_le_of_place? {table : Array (List Nat)} {countdown later : Countdown}
    {node : Nat} (hplace : countdown.place? table node = some later) :
    later.remaining ≤ countdown.remaining := by
  obtain ⟨befores, -, hfold⟩ := Option.bind_eq_some_iff.mp hplace
  exact remaining_le_of_foldlM (fun _ _ _ => remaining_le_of_lower?) hfold

end Countdown

/-- The layers up to the given one, first layer first.  There is no result if a node to be
placed is not in the table, or a counter to be lowered is missing or at zero. -/
def countDown? (table : Array (List Nat)) (counters current : List Nat) :
    Option (List (List Nat)) :=
  if current.isEmpty then some []
  else
    match _ : current.foldlM (Countdown.place? table) ⟨counters, KeySet.empty⟩ with
    | none => none
    | some countdown =>
        (countDown? table countdown.counters countdown.freed.toList).map (· ++ [current])
termination_by pending counters + current.length
decreasing_by
  rename_i hcurrent hplace
  have hremaining := Countdown.remaining_le_of_foldlM
    (fun _ _ _ => Countdown.remaining_le_of_place?) hplace
  have hpos : 0 < current.length := by
    cases current with
    | nil => simp at hcurrent
    | cons node rest => simp
  simp only [Countdown.remaining, KeySet.empty, List.length_nil] at hremaining
  omega

end Layers

namespace Graph

def predecessorTable (graph : Graph) : Array (List Nat) :=
  ((List.range graph.size).map graph.predecessors).toArray

/-- Counts down from the nodes without successors. -/
def layers? (graph : Graph) : Option (List (List Nat)) :=
  let counters := (List.range graph.size).map fun node => (graph.successors node).length
  let current := (List.range graph.size).filter fun node => counters[node]? == some 0
  Layers.countDown? graph.predecessorTable counters current

/-- The layers of the graph: nodes that may run side by side, in the order in which the
layers run, each in ascending order. -/
def layers (graph : Graph) : List (List Nat) :=
  graph.layers?.getD []

end Graph

end TickWaves
