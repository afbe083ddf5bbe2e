import TickWaves.Proofs.Graph.Acyclic
import TickWaves.Proofs.Graph.Countdown

/-!
# Layers hold every node once and run with the edges

On the graphs that are built, counting down never fails and peels off the nodes without
successors among those that are left.  In an acyclic graph there is always such a node, so
nothing is left over: the layers together are a permutation of the nodes.  An edge always
goes from one layer to a later one.
-/

namespace TickWaves

open Relation

namespace Graph

variable {graph : Graph}

theorem areInverse_successors (graph : Graph) :
    Layers.AreInverse graph.successors graph.predecessors := by
  intro before after
  rw [predecessors, successors, List.count_filterMap, List.count_filterMap]
  refine List.countP_congr fun edge _ => ?_
  simp only [beq_iff_eq, Option.ite_none_right_eq_some, Option.some.injEq]
  exact and_comm

theorem getElem?_predecessorTable {node : Nat} (hnode : node < graph.size) :
    graph.predecessorTable[node]? = some (graph.predecessors node) := by
  simp [predecessorTable, hnode]

/-- In the beginning every node is still to be placed, and its counter is the number of its
successors. -/
theorem IsScoped.fits (hscoped : graph.IsScoped) :
    Layers.Fits graph.successors graph.size
      ((List.range graph.size).map fun node => (graph.successors node).length)
      (List.range graph.size) where
  sublist := List.Sublist.refl _
  before node other hother _ :=
    List.mem_range.mpr (hscoped node other (mem_successors.mp hother)).1
  counters node hnode := by
    have hall : (graph.successors node).countP (· ∈ List.range graph.size) =
        (graph.successors node).length := by
      refine List.countP_eq_length.mpr fun other hother => decide_eq_true ?_
      exact hscoped.successors_subset node hother
    rw [hall, List.getElem?_map, List.getElem?_range hnode, Option.map_some]

/-- Counting down never fails, and it comes to what peeling comes to. -/
theorem IsScoped.layers?_eq (hscoped : graph.IsScoped) :
    graph.layers? = some (Layers.peel graph.successors (List.range graph.size)) := by
  have hready : ((List.range graph.size).filter fun node =>
      ((List.range graph.size).map fun node => (graph.successors node).length)[node]?
        == some 0) = Layers.ready graph.successors (List.range graph.size) := by
    refine List.filter_congr fun node hnode => Bool.eq_iff_iff.mpr ?_
    rw [hscoped.fits.counters node (List.mem_range.mp hnode), beq_iff_eq, Option.some.injEq,
      List.countP_eq_zero, List.all_eq_true]
    simp
  simp only [layers?, hready]
  exact hscoped.fits.countDown?_eq graph.areInverse_successors
    fun node => getElem?_predecessorTable

theorem IsScoped.layers_eq (hscoped : graph.IsScoped) :
    graph.layers = Layers.peel graph.successors (List.range graph.size) := by
  rw [layers, hscoped.layers?_eq, Option.getD_some]

theorem transGen_successors (graph : Graph) :
    TransGen (fun node other => other ∈ graph.successors node) = TransGen graph.Leads := by
  congr 1
  funext node other
  exact propext mem_successors

/-- Every node of an acyclic graph is in exactly one layer. -/
theorem IsAcyclic.flatten_layers_perm (hacyclic : graph.IsAcyclic)
    (hscoped : graph.IsScoped) : graph.layers.flatten.Perm (List.range graph.size) := by
  rw [hscoped.layers_eq]
  apply Layers.flatten_peel_perm
  rw [transGen_successors]
  exact hacyclic

theorem ne_nil_of_mem_layers (hscoped : graph.IsScoped) {layer : List Nat}
    (hlayer : layer ∈ graph.layers) : layer ≠ [] := by
  rw [hscoped.layers_eq] at hlayer
  exact Layers.ne_nil_of_mem_peel hlayer

theorem pairwise_lt_of_mem_layers (hscoped : graph.IsScoped) {layer : List Nat}
    (hlayer : layer ∈ graph.layers) : layer.Pairwise (· < ·) := by
  rw [hscoped.layers_eq] at hlayer
  exact List.pairwise_lt_range.sublist (Layers.sublist_of_mem_peel hlayer)

/-- Every edge from a node of a layer leads to a later layer. -/
theorem exists_later_layer (hscoped : graph.IsScoped) {layer : List Nat}
    {index node other : Nat} (hlayer : graph.layers[index]? = some layer)
    (hnode : node ∈ layer) (hleads : graph.Leads node other) :
    ∃ later target, index < later ∧ graph.layers[later]? = some target ∧
      other ∈ target := by
  rw [hscoped.layers_eq] at hlayer ⊢
  exact Layers.exists_later_of_getElem?_peel hlayer hnode (mem_successors.mpr hleads)
    (List.mem_range.mpr (hscoped node other hleads).2)

/-- From every node of a layer that is not the last one, an edge leads to the next one. -/
theorem exists_next_layer (hscoped : graph.IsScoped) {layer : List Nat} {index node : Nat}
    (hlayer : graph.layers[index]? = some layer) (hnode : node ∈ layer)
    (hindex : index + 1 < graph.layers.length) :
    ∃ other, graph.Leads node other ∧
      ∃ target, graph.layers[index + 1]? = some target ∧ other ∈ target := by
  rw [hscoped.layers_eq] at hlayer hindex ⊢
  obtain ⟨other, hother, htarget⟩ :=
    Layers.exists_next_of_getElem?_peel hlayer hnode hindex
  exact ⟨other, mem_successors.mp hother, htarget⟩

end Graph

end TickWaves
