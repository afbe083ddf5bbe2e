import TickWaves.Proofs.Graph.Layering

/-!
# Graphs inside other graphs

A map of nodes that keeps the edges lays one graph into another one (`Graph.Embeds`).  A
graph that can be laid into one without cycles has none itself, and not more layers.  If the
map reaches all nodes and no edge of the other graph is new (`Graph.Matches`), then the
layers of the two graphs correspond.
-/

namespace TickWaves

open Relation

namespace Layers

variable {next next' : Nat → List Nat} {place : Nat → Nat} {nodes nodes' : List Nat}

/-- A node that waits for another one still does so where it is laid. -/
theorem mem_waiting_of_mem_waiting
    (hnext : ∀ node, ∀ other ∈ next node, place other ∈ next' (place node))
    (hnodes : ∀ node ∈ nodes, place node ∈ nodes') :
    ∀ node ∈ waiting next nodes, place node ∈ waiting next' nodes' := by
  intro node hwaiting
  obtain ⟨hnode, other, hstep, hother⟩ := mem_waiting_iff_exists.mp hwaiting
  exact mem_waiting_iff_exists.mpr
    ⟨hnodes node hnode, place other, hnext node other hstep, hnodes other hother⟩

theorem length_peel_le
    (hacyclic : ∀ node, ¬ TransGen (fun node other => other ∈ next' node) node node)
    (hnext : ∀ node, ∀ other ∈ next node, place other ∈ next' (place node))
    (hnodes : ∀ node ∈ nodes, place node ∈ nodes') :
    (peel next nodes).length ≤ (peel next' nodes').length := by
  fun_induction peel next nodes generalizing nodes' with
  | case1 nodes => exact Nat.zero_le _
  | case2 nodes hready ih =>
      obtain ⟨node, hnode⟩ := List.exists_mem_of_ne_nil _ (mt List.isEmpty_iff.mpr hready)
      have hsome : nodes' ≠ [] :=
        List.ne_nil_of_mem (hnodes node (mem_ready.mp hnode).1)
      have hready' : ¬ (ready next' nodes').isEmpty = true :=
        mt List.isEmpty_iff.mp (ready_ne_nil hacyclic hsome)
      rw [peel.eq_def next' nodes', if_neg hready', List.length_append, List.length_append]
      exact Nat.succ_le_succ (ih (mem_waiting_of_mem_waiting hnext hnodes))

theorem filter_perm_map {p p' : Nat → Bool} (hp : ∀ node ∈ nodes, p' (place node) = p node)
    (hperm : nodes'.Perm (nodes.map place)) :
    (nodes'.filter p').Perm ((nodes.filter p).map place) := by
  have hcongr : nodes.filter (p' ∘ place) = nodes.filter p := List.filter_congr hp
  calc
    (nodes'.filter p').Perm ((nodes.map place).filter p') := hperm.filter p'
    _ = (nodes.filter p).map place := by rw [List.filter_map, hcongr]

section Matching

variable
  (hnext : ∀ node ∈ nodes, ∀ other ∈ nodes,
    place other ∈ next' (place node) ↔ other ∈ next node)
  (hperm : nodes'.Perm (nodes.map place))
include hnext hperm

theorem all_next_place {node : Nat} (hnode : node ∈ nodes) :
    ((next' (place node)).all fun other => !nodes'.contains other) =
      (next node).all fun other => !nodes.contains other := by
  rw [Bool.eq_iff_iff, List.all_eq_true, List.all_eq_true]
  simp only [Bool.not_eq_true', List.contains_eq_mem, decide_eq_false_iff_not]
  constructor
  · intro hfree other hstep hother
    exact hfree (place other) ((hnext node hnode other hother).mpr hstep)
      (hperm.mem_iff.mpr (List.mem_map_of_mem hother))
  · intro hfree other' hstep hother'
    obtain ⟨other, hother, rfl⟩ := List.mem_map.mp (hperm.mem_iff.mp hother')
    exact hfree other ((hnext node hnode other hother).mp hstep) hother

theorem ready_perm_map : (ready next' nodes').Perm ((ready next nodes).map place) :=
  filter_perm_map (fun _ => all_next_place hnext hperm) hperm

theorem waiting_perm_map : (waiting next' nodes').Perm ((waiting next nodes).map place) :=
  filter_perm_map (fun _ hnode => congrArg _ (all_next_place hnext hperm hnode)) hperm

/-- If the steps between the nodes are the same where these are laid, and nothing else is
there, then so are the layers. -/
theorem forall₂_peel :
    List.Forall₂ (fun layer layer' => layer'.Perm (layer.map place))
      (peel next nodes) (peel next' nodes') := by
  have hready := ready_perm_map hnext hperm
  fun_induction peel next nodes generalizing nodes' with
  | case1 nodes hempty =>
      have hempty' : (ready next' nodes').isEmpty = true := by
        rw [List.isEmpty_iff] at hempty ⊢
        rw [hempty] at hready
        exact hready.eq_nil
      rw [peel.eq_def next' nodes', if_pos hempty']
      exact .nil
  | case2 nodes hsome ih =>
      have hsome' : ¬ (ready next' nodes').isEmpty = true := by
        rw [List.isEmpty_iff] at hsome ⊢
        intro hnone
        rw [hnone, List.nil_perm, List.map_eq_nil_iff] at hready
        exact hsome hready
      have hkept : ∀ node ∈ waiting next nodes, ∀ other ∈ waiting next nodes,
          place other ∈ next' (place node) ↔ other ∈ next node := fun node hnode other hother =>
        hnext node (mem_waiting.mp hnode).1 other (mem_waiting.mp hother).1
      have hrest := waiting_perm_map hnext hperm
      rw [peel.eq_def next' nodes', if_neg hsome']
      exact List.rel_append (ih hkept hrest (ready_perm_map hkept hrest))
        (.cons hready .nil)

end Matching

end Layers

namespace Graph

variable {graph other : Graph} {place : Nat → Nat}

/-- The nodes of one graph have places in another one, which has all their edges. -/
structure Embeds (graph other : Graph) (place : Nat → Nat) : Prop where
  maps : ∀ node < graph.size, place node < other.size
  leads : ∀ before after, graph.Leads before after → other.Leads (place before) (place after)

theorem Embeds.isAcyclic (hembeds : graph.Embeds other place) (hacyclic : other.IsAcyclic) :
    graph.IsAcyclic :=
  fun node hcycle => hacyclic (place node) (hcycle.lift place hembeds.leads)

theorem Embeds.length_layers_le (hembeds : graph.Embeds other place)
    (hscoped : graph.IsScoped) (hscoped' : other.IsScoped) (hacyclic : other.IsAcyclic) :
    graph.layers.length ≤ other.layers.length := by
  rw [hscoped.layers_eq, hscoped'.layers_eq]
  have hnext : ∀ node, ∀ later ∈ graph.successors node,
      place later ∈ other.successors (place node) := fun node later hlater =>
    mem_successors.mpr (hembeds.leads node later (mem_successors.mp hlater))
  refine Layers.length_peel_le ?_ hnext fun node hnode => ?_
  · rw [transGen_successors]
    exact hacyclic
  · exact List.mem_range.mpr (hembeds.maps node (List.mem_range.mp hnode))

/-- The places of one graph are all nodes of another one, with the same edges. -/
structure Matches (graph other : Graph) (place : Nat → Nat) : Prop where
  perm : (List.range other.size).Perm ((List.range graph.size).map place)
  leads_iff : ∀ before < graph.size, ∀ after < graph.size,
    other.Leads (place before) (place after) ↔ graph.Leads before after

theorem Matches.forall₂_layers (hmatches : graph.Matches other place)
    (hscoped : graph.IsScoped) (hscoped' : other.IsScoped) :
    List.Forall₂ (fun layer layer' => layer'.Perm (layer.map place))
      graph.layers other.layers := by
  rw [hscoped.layers_eq, hscoped'.layers_eq]
  refine Layers.forall₂_peel (fun before hbefore after hafter => ?_) hmatches.perm
  rw [mem_successors, mem_successors]
  exact hmatches.leads_iff before (List.mem_range.mp hbefore) after (List.mem_range.mp hafter)

end Graph

end TickWaves
