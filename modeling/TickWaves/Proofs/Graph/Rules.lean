import TickWaves.Proofs.Graph.Listing

/-!
# The edges are the rules

A graph that is built without a cycle has an edge from one system to another one exactly if
the two conflict and the first has the right of way, or their tags are in order
(`Graph.followsRules_of_build`).  A conflict decides the reason: the tags are named only
where there is none, since a tag order against a conflict would close a cycle.
-/

namespace TickWaves

open Relation

universe u

variable {β : Type u}

namespace Graph

variable {graph : Graph}

theorem hasEdge_eq_true_iff {before after : Nat} :
    graph.hasEdge before after = true ↔ graph.Leads before after := by
  simp only [hasEdge, List.any_eq_true, Bool.and_eq_true, beq_iff_eq, Leads]

/-- If the far ends of edges that share an end ascend, then so do the far ends at each node. -/
theorem pairwise_lt_filterMap_ends {edges : List Edge} {shared far : Edge → Nat}
    (hahead : edges.Pairwise fun edge other => shared edge = shared other → far edge < far other)
    (node : Nat) :
    (edges.filterMap fun edge =>
      if shared edge = node then some (far edge) else none).Pairwise (· < ·) := by
  rw [List.pairwise_filterMap]
  refine hahead.imp fun {edge other} hlt last hlast last' hlast' => ?_
  rw [Option.ite_none_right_eq_some, Option.some.injEq] at hlast hlast'
  rw [← hlast.2, ← hlast'.2]
  exact hlt (hlast.1.trans hlast'.1.symm)

theorem pairwise_lt_successors (hahead : graph.edges.Pairwise Edge.IsAhead) (node : Nat) :
    (graph.successors node).Pairwise (· < ·) := by
  refine pairwise_lt_filterMap_ends (hahead.imp fun hedges heq => ?_) node
  rw [Edge.IsAhead] at hedges
  omega

theorem pairwise_lt_predecessors (hahead : graph.edges.Pairwise Edge.IsAhead) (node : Nat) :
    (graph.predecessors node).Pairwise (· < ·) := by
  refine pairwise_lt_filterMap_ends (hahead.imp fun hedges heq => ?_) node
  rw [Edge.IsAhead] at hedges
  omega

variable {systems : List (Descriptor β)} {tags : TagOrder}

theorem GoesFirst.ne {first second : Fin systems.length}
    (hfirst : GoesFirst systems first second) : first ≠ second := by
  rintro rfl
  rw [GoesFirst] at hfirst
  omega

/-- In a graph without a cycle, the tags never put a system after one that it has the right
of way over. -/
theorem IsAcyclic.goesFirst_of_leads (hacyclic : (ofSystems systems tags).IsAcyclic)
    {first second : Fin systems.length}
    (hleads : (ofSystems systems tags).Leads first second)
    (hconflict : (systems.get first).conflicts (systems.get second) = true) :
    GoesFirst systems first second := by
  have hne : first ≠ second := by
    rintro rfl
    exact hacyclic first (.single hleads)
  refine (goesFirst_or_goesFirst systems hne).resolve_right fun hback => ?_
  have hreturn : (ofSystems systems tags).Leads second first :=
    leads_conflicting_iff.mpr
      (Or.inl ⟨(Descriptor.conflicts_comm _ _).trans hconflict, hback⟩)
  exact hacyclic first (.head hleads (.single hreturn))

/-- Which reason an edge has is decided by whether its ends conflict. -/
theorem Binds.reason_iff {first second : Fin systems.length} {reason : Reason}
    (hbinds : Binds systems tags first second reason)
    (hfirst : (systems.get first).conflicts (systems.get second) = true →
      GoesFirst systems first second) :
    (reason = .priority ↔ (systems.get first).conflicts (systems.get second) = true ∧
        (systems.get first).priority ≠ (systems.get second).priority) ∧
      (reason = .dataConflict ↔ (systems.get first).conflicts (systems.get second) = true ∧
        (systems.get first).priority = (systems.get second).priority) ∧
      (reason = .explicitTag ↔
        (systems.get first).conflicts (systems.get second) = false) := by
  cases hbinds with
  | priority hconflict hpriority =>
      have hne : (systems.get first).priority ≠ (systems.get second).priority := by omega
      simp only [hconflict, hne, ne_eq, not_false_eq_true, and_self, and_false, reduceCtorEq,
        Bool.true_eq_false]
  | dataConflict hconflict hpriority hlt =>
      simp only [hconflict, hpriority, ne_eq, not_true_eq_false, and_self, and_false,
        reduceCtorEq, Bool.true_eq_false]
  | explicitTag hne htags hfree =>
      have hnone : (systems.get first).conflicts (systems.get second) = false :=
        Bool.eq_false_iff.mpr fun hconflict => hfree ⟨hconflict, hfirst hconflict⟩
      simp only [hnone, reduceCtorEq, Bool.false_eq_true, false_and, and_self]

/-- The edges of a graph are the ordering rules for its systems, listed in order. -/
structure FollowsRules (systems : List (Descriptor β)) (tags : TagOrder) (graph : Graph) :
    Prop where
  hasEdge_iff : ∀ first second : Fin systems.length,
    graph.hasEdge first second = true ↔ first ≠ second ∧
      ((systems.get first).conflicts (systems.get second) = true ∧
          GoesFirst systems first second ∨
        TagsInOrder systems tags first second)
  inside : ∀ before after, graph.hasEdge before after = true →
    before < systems.length ∧ after < systems.length
  reason_iff : ∀ first second : Fin systems.length, ∀ edge ∈ graph.edges,
    edge.before = first → edge.after = second →
      (edge.reason = .priority ↔
        (systems.get first).conflicts (systems.get second) = true ∧
          (systems.get first).priority ≠ (systems.get second).priority) ∧
      (edge.reason = .dataConflict ↔
        (systems.get first).conflicts (systems.get second) = true ∧
          (systems.get first).priority = (systems.get second).priority) ∧
      (edge.reason = .explicitTag ↔
        (systems.get first).conflicts (systems.get second) = false)
  /-- Hence no two edges have the same ends. -/
  in_order : graph.edges.Pairwise Edge.IsAhead
  listed : List.Forall₂
    (fun (edge : Edge) (precedence : Precedence) => ∃ first second : Fin systems.length,
      edge.before = first ∧ edge.after = second ∧
        precedence = ⟨(systems.get first).id, (systems.get second).id, edge.reason⟩)
    graph.edges graph.precedences
  mem_edges_iff : ∀ before after,
    graph.hasEdge before after = true ↔
      ∃ edge ∈ graph.edges, edge.before = before ∧ edge.after = after
  mem_successors_iff : ∀ before after,
    after ∈ graph.successors before ↔ graph.hasEdge before after = true
  mem_predecessors_iff : ∀ before after,
    before ∈ graph.predecessors after ↔ graph.hasEdge before after = true
  successors_ascend : ∀ node, (graph.successors node).Pairwise (· < ·)
  predecessors_ascend : ∀ node, (graph.predecessors node).Pairwise (· < ·)

theorem followsRules_of_build
    (hbuild : build systems (SystemPair.conflicting systems) tags = .ok graph) :
    graph.FollowsRules systems tags := by
  obtain ⟨hgraph, hacyclic⟩ := build_eq_ok hbuild
  obtain rfl : graph = ofSystems systems tags := hgraph
  have hahead : (ofSystems systems tags).edges.Pairwise Edge.IsAhead :=
    pairwise_isAhead_assembled _
  exact {
    hasEdge_iff := by
      intro first second
      rw [hasEdge_eq_true_iff, ofSystems, leads_conflicting_iff, and_or_left]
      refine or_congr_left ?_
      exact ⟨fun hrule => ⟨hrule.2.ne, hrule⟩, And.right⟩
    inside := by
      intro before after hedge
      have hbounds := isScoped_ofSystems systems tags before after
        (hasEdge_eq_true_iff.mp hedge)
      rwa [size_ofSystems] at hbounds
    reason_iff := by
      intro first second edge hedge hbefore hafter
      obtain ⟨left, right, hleft, hright, hbinds⟩ := binds_of_mem_edges hedge
      obtain rfl : left = first := Fin.ext (hleft.symm.trans hbefore)
      obtain rfl : right = second := Fin.ext (hright.symm.trans hafter)
      exact hbinds.reason_iff (hacyclic.goesFirst_of_leads ⟨edge, hedge, hbefore, hafter⟩)
    in_order := hahead
    listed := by
      rw [precedences, List.forall₂_map_right_iff, List.forall₂_same]
      intro edge hedge
      obtain ⟨first, second, hbefore, hafter, -⟩ := binds_of_mem_edges hedge
      refine ⟨first, second, hbefore, hafter, ?_⟩
      rw [hbefore, hafter, idAt_ofSystems, idAt_ofSystems]
    mem_edges_iff := fun _ _ => hasEdge_eq_true_iff
    mem_successors_iff := fun _ _ => mem_successors.trans hasEdge_eq_true_iff.symm
    mem_predecessors_iff := fun _ _ => mem_predecessors.trans hasEdge_eq_true_iff.symm
    successors_ascend := pairwise_lt_successors hahead
    predecessors_ascend := pairwise_lt_predecessors hahead }

/-- Two systems at odds over a type, a third that outranks both of them there, and a fourth
that only the tags put before one of them. -/
def sketchedRules : List (Descriptor Unit) :=
  [((Descriptor.ofBody "draw" ()).reading ⟨7⟩),
    ((Descriptor.ofBody "move" ()).writing ⟨7⟩).withPriority 5,
    (Descriptor.ofBody "input" ()).withTag ⟨1⟩,
    ((Descriptor.ofBody "save" ()).writing ⟨7⟩).withTag ⟨2⟩]

/-- All three reasons at once, with tags in order through one that no system carries. -/
theorem followsRules_of_build_sketchedRules :
    ∃ graph, build sketchedRules (SystemPair.conflicting sketchedRules)
        (TagOrder.ofPairs [(⟨1⟩, ⟨8⟩), (⟨8⟩, ⟨2⟩)]) = .ok graph ∧
      graph.edges = [⟨0, 3, .dataConflict⟩, ⟨1, 0, .priority⟩, ⟨1, 3, .priority⟩,
        ⟨2, 3, .explicitTag⟩] ∧
      graph.FollowsRules sketchedRules (TagOrder.ofPairs [(⟨1⟩, ⟨8⟩), (⟨8⟩, ⟨2⟩)]) := by
  have hedges : (build sketchedRules (SystemPair.conflicting sketchedRules)
      (TagOrder.ofPairs [(⟨1⟩, ⟨8⟩), (⟨8⟩, ⟨2⟩)])).toOption.map edges =
        some [⟨0, 3, .dataConflict⟩, ⟨1, 0, .priority⟩, ⟨1, 3, .priority⟩,
          ⟨2, 3, .explicitTag⟩] := by decide +kernel
  cases hbuild : build sketchedRules (SystemPair.conflicting sketchedRules)
      (TagOrder.ofPairs [(⟨1⟩, ⟨8⟩), (⟨8⟩, ⟨2⟩)]) with
  | error dependency =>
      rw [hbuild] at hedges
      cases hedges
  | ok graph =>
      rw [hbuild] at hedges
      exact ⟨graph, rfl, Option.some.inj hedges, followsRules_of_build hbuild⟩

end Graph

end TickWaves
