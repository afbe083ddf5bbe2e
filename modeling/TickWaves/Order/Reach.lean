/-!
# Reachability in a finite relation

The nodes that can be reached from a node by one step or more, where the steps are given
by a successor function and all nodes come from a finite list.  The start counts as
reached only if a step leads back to it.
-/

namespace TickWaves.Reach

universe u

variable {α : Type u} [DecidableEq α]

/-- The nodes of a list that a node steps to. -/
def met (next : α → List α) (fresh : List α) (node : α) : List α :=
  fresh.filter fun other => decide (other ∈ next node)

/-- The nodes of a list that a node does not step to. -/
def unmet (next : α → List α) (fresh : List α) (node : α) : List α :=
  fresh.filter fun other => !decide (other ∈ next node)

theorem length_met_add_length_unmet (next : α → List α) (fresh : List α) (node : α) :
    (met next fresh node).length + (unmet next fresh node).length = fresh.length := by
  rw [fresh.length_eq_countP_add_countP fun other => decide (other ∈ next node)]
  simp [met, unmet, List.countP_eq_length_filter]

/-- Visits the nodes of `todo` one after the other.  `fresh` are the nodes not met so
far; those among them that a visited node steps to are met now and visited later.  The
result are the nodes that were met. -/
def explore (next : α → List α) (fresh todo : List α) : List α :=
  match todo with
  | [] => []
  | node :: todo =>
      met next fresh node
        ++ explore next (unmet next fresh node) (todo ++ met next fresh node)
termination_by fresh.length + todo.length
decreasing_by
  have hlength := length_met_add_length_unmet next fresh node
  simp only [List.length_append, List.length_cons]
  omega

/-- The nodes of `nodes` that can be reached from `start` by one step or more. -/
def reached (next : α → List α) (nodes : List α) (start : α) : List α :=
  explore next nodes [start]

end TickWaves.Reach
