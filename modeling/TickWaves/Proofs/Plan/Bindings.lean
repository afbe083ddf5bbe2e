import TickWaves.Proofs.Graph.CycleCheck
import TickWaves.Proofs.Plan.Layout

/-!
# What binds two systems

Every edge of a plan stands for one of three reasons why a system has to go before another
one (`Graph.Binds`), and there is one for every such reason (`Plan.mem_precedences_iff`).
Which reason it is depends only on the two systems, on the order of their tags and, for
systems in conflict with equal priority, on which of them stands first in the list.  A list
of systems has a plan unless its bindings have a cycle.
-/

namespace TickWaves

universe u

variable {β : Type u}

namespace Graph

/-- Why one system has to go before another one.  The order of the tags is the reason if
their conflict, if any, does not put them in the same order. -/
inductive Binds (systems : List (Descriptor β)) (tags : TagOrder)
    (first second : Fin systems.length) : Reason → Prop
  | priority (hconflict : (systems.get first).conflicts (systems.get second) = true)
      (hpriority : (systems.get second).priority < (systems.get first).priority) :
      Binds systems tags first second .priority
  | dataConflict (hconflict : (systems.get first).conflicts (systems.get second) = true)
      (hpriority : (systems.get second).priority = (systems.get first).priority)
      (hlt : first < second) : Binds systems tags first second .dataConflict
  | explicitTag (hne : first ≠ second) (htags : TagsInOrder systems tags first second)
      (hfree : ¬ ((systems.get first).conflicts (systems.get second) = true ∧
        GoesFirst systems first second)) : Binds systems tags first second .explicitTag

variable {systems : List (Descriptor β)} {tags : TagOrder} {first second : Fin systems.length}

/-- Two systems are bound in one order for one reason only. -/
theorem Binds.reason_eq {reason other : Reason} (hbinds : Binds systems tags first second reason)
    (hother : Binds systems tags first second other) : reason = other := by
  cases hbinds with
  | priority hconflict hpriority =>
      cases hother with
      | priority => rfl
      | dataConflict _ hequal => exact absurd hequal (Int.ne_of_lt hpriority)
      | explicitTag _ _ hfree => exact absurd ⟨hconflict, Or.inl hpriority⟩ hfree
  | dataConflict hconflict hequal hlt =>
      cases hother with
      | priority _ hpriority => exact absurd hequal (Int.ne_of_lt hpriority)
      | dataConflict => rfl
      | explicitTag _ _ hfree => exact absurd ⟨hconflict, Or.inr ⟨hequal, hlt⟩⟩ hfree
  | explicitTag _ _ hfree =>
      cases hother with
      | priority hconflict hpriority => exact absurd ⟨hconflict, Or.inl hpriority⟩ hfree
      | dataConflict hconflict hequal hlt =>
          exact absurd ⟨hconflict, Or.inr ⟨hequal, hlt⟩⟩ hfree
      | explicitTag => rfl

theorem binds_of_directed {pair : SystemPair systems.length}
    (hpair : pair ∈ SystemPair.conflicting systems)
    (hbefore : (directed systems pair).before = first)
    (hafter : (directed systems pair).after = second) :
    Binds systems tags first second (directed systems pair).reason := by
  obtain ⟨left, right⟩ := pair
  obtain ⟨hlt, hconflict⟩ := mem_conflicting.mp hpair
  simp only [directed_eq] at hbefore hafter ⊢
  split_ifs at hbefore hafter ⊢ with hfirst hsecond
  · obtain rfl : left = first := Fin.ext hbefore
    obtain rfl : right = second := Fin.ext hafter
    exact .priority hconflict hfirst
  · obtain rfl : right = first := Fin.ext hbefore
    obtain rfl : left = second := Fin.ext hafter
    exact .priority ((Descriptor.conflicts_comm _ _).trans hconflict) hsecond
  · obtain rfl : left = first := Fin.ext hbefore
    obtain rfl : right = second := Fin.ext hafter
    exact .dataConflict hconflict (by omega) hlt

theorem binds_of_mem_edges {edge : Edge} (hedge : edge ∈ (ofSystems systems tags).edges) :
    ∃ first second : Fin systems.length, edge.before = first ∧ edge.after = second ∧
      Binds systems tags first second edge.reason := by
  obtain ⟨first, -, hedge⟩ := List.mem_flatMap.mp hedge
  obtain ⟨second, hfound | ⟨hfree, hne, htags, rfl⟩⟩ := mem_edgesFrom.mp hedge
  · have htest := List.find?_some hfound
    rw [Bool.and_eq_true, beq_iff_eq, beq_iff_eq] at htest
    obtain ⟨pair, hpair, rfl⟩ := List.mem_map.mp (List.mem_of_find?_eq_some hfound)
    exact ⟨first, second, htest.1, htest.2, binds_of_directed hpair htest.1 htest.2⟩
  · refine ⟨first, second, rfl, rfl, .explicitTag hne htags fun hdemand => ?_⟩
    obtain ⟨pair, hpair, hends⟩ := exists_directed_iff.mpr hdemand
    exact hfree _ (List.mem_map_of_mem hpair) hends

/-- Of two systems, one leads to the other if something binds them. -/
theorem leads_ofSystems_iff :
    (ofSystems systems tags).Leads first second ↔
      ∃ reason, Binds systems tags first second reason := by
  constructor
  · rintro ⟨edge, hedge, hbefore, hafter⟩
    obtain ⟨left, right, hleft, hright, hbinds⟩ := binds_of_mem_edges hedge
    obtain rfl : left = first := Fin.ext (hleft.symm.trans hbefore)
    obtain rfl : right = second := Fin.ext (hright.symm.trans hafter)
    exact ⟨edge.reason, hbinds⟩
  · rintro ⟨reason, hbinds⟩
    refine leads_conflicting_iff.mpr ?_
    cases hbinds with
    | priority hconflict hpriority => exact Or.inl ⟨hconflict, Or.inl hpriority⟩
    | dataConflict hconflict hpriority hlt =>
        exact Or.inl ⟨hconflict, Or.inr ⟨hpriority, hlt⟩⟩
    | explicitTag hne htags _ => exact Or.inr ⟨hne, htags⟩

/-- The edges of a list of systems are what binds them. -/
theorem mem_edges_ofSystems_iff {edge : Edge} :
    edge ∈ (ofSystems systems tags).edges ↔
      ∃ first second : Fin systems.length, edge.before = first ∧ edge.after = second ∧
        Binds systems tags first second edge.reason := by
  refine ⟨binds_of_mem_edges, ?_⟩
  rintro ⟨first, second, hbefore, hafter, hbinds⟩
  obtain ⟨other, hother, hfirst, hsecond⟩ := leads_ofSystems_iff.mpr ⟨_, hbinds⟩
  obtain ⟨left, right, hleft, hright, hbinds'⟩ := binds_of_mem_edges hother
  obtain rfl : left = first := Fin.ext (hleft.symm.trans hfirst)
  obtain rfl : right = second := Fin.ext (hright.symm.trans hsecond)
  have hreason := hbinds.reason_eq hbinds'
  have hsame : edge = other := by
    change (⟨edge.before, edge.after, edge.reason⟩ : Edge) = _
    rw [hbefore, hafter, hreason, ← hfirst, ← hsecond]
  rwa [hsame]

end Graph

namespace Plan

/-- A list of systems has a plan exactly if its constraints are acyclic. -/
theorem exists_build_eq_ok_iff {systems : List (Descriptor β)} {tags : TagOrder}
    {generation : Nat} :
    (∃ plan, build systems tags generation = .ok plan) ↔
      (Graph.ofSystems systems tags).IsAcyclic := by
  constructor
  · rintro ⟨plan, hbuild⟩
    exact (build_eq_ok hbuild).1
  · intro hacyclic
    obtain ⟨graph, hgraph⟩ := Graph.exists_build_eq_ok_iff.mpr hacyclic
    exact ⟨ofGraph systems graph generation, by rw [build, hgraph]⟩

/-- The edges of a plan, by identifier, are what binds its systems. -/
theorem mem_precedences_iff {systems : List (Descriptor β)} {tags : TagOrder}
    {generation : Nat} {plan : Plan β} (hbuild : build systems tags generation = .ok plan)
    {precedence : Precedence} :
    precedence ∈ plan.precedences ↔
      ∃ first second : Fin systems.length,
        precedence.before = (systems.get first).id ∧
          precedence.after = (systems.get second).id ∧
            Graph.Binds systems tags first second precedence.reason := by
  rw [(build_eq_ok hbuild).2, ofGraph, Graph.precedences, List.mem_map]
  constructor
  · rintro ⟨edge, hedge, rfl⟩
    obtain ⟨first, second, hbefore, hafter, hbinds⟩ := Graph.mem_edges_ofSystems_iff.mp hedge
    refine ⟨first, second, ?_, ?_, hbinds⟩
    · rw [hbefore, Graph.idAt_ofSystems]
    · rw [hafter, Graph.idAt_ofSystems]
  · rintro ⟨first, second, hbefore, hafter, hbinds⟩
    refine ⟨⟨first, second, precedence.reason⟩,
      Graph.mem_edges_ofSystems_iff.mpr ⟨first, second, rfl, rfl, hbinds⟩, ?_⟩
    rw [Graph.idAt_ofSystems, Graph.idAt_ofSystems, ← hbefore, ← hafter]

end Plan

end TickWaves
