import TickWaves.Graph.Basic
import TickWaves.Graph.Cycle
import TickWaves.Proofs.Order.Reachability
import TickWaves.Proofs.System.Conflict

/-!
# Which edges a graph has

An edge goes from one position to another one if a pair in conflict is directed that way,
or if the tags of the two systems are in order.  For the pairs that are found by comparing
every two systems, `leads_conflicting_iff` says so in terms of the systems alone.
-/

namespace TickWaves

open Relation

universe u

variable {β : Type u}

namespace Graph

def Leads (graph : Graph) (before after : Nat) : Prop :=
  ∃ edge ∈ graph.edges, edge.before = before ∧ edge.after = after

@[simp]
theorem mem_successors {graph : Graph} {before after : Nat} :
    after ∈ graph.successors before ↔ graph.Leads before after := by
  simp only [successors, List.mem_filterMap, Option.ite_none_right_eq_some,
    Option.some.injEq, Leads]

@[simp]
theorem mem_predecessors {graph : Graph} {before after : Nat} :
    before ∈ graph.predecessors after ↔ graph.Leads before after := by
  simp only [predecessors, List.mem_filterMap, Option.ite_none_right_eq_some,
    Option.some.injEq, Leads]
  constructor
  · rintro ⟨edge, hedge, hafter, hbefore⟩
    exact ⟨edge, hedge, hbefore, hafter⟩
  · rintro ⟨edge, hedge, hbefore, hafter⟩
    exact ⟨edge, hedge, hafter, hbefore⟩

/-- No constraint joins two of the given positions. -/
def IsIndependent (graph : Graph) (nodes : List Nat) : Prop :=
  ∀ before ∈ nodes, ∀ after ∈ nodes, ¬ graph.Leads before after

theorem IsIndependent.mono {graph : Graph} {nodes nodes' : List Nat}
    (hfree : graph.IsIndependent nodes) (hsub : nodes' ⊆ nodes) : graph.IsIndependent nodes' :=
  fun before hbefore after hafter => hfree before (hsub hbefore) after (hsub hafter)

/-- Of two systems, the first one has the right of way: it has the higher priority, or the
same priority and the earlier position. -/
def GoesFirst (systems : List (Descriptor β)) (first second : Fin systems.length) : Prop :=
  (systems.get second).priority < (systems.get first).priority ∨
    ((systems.get second).priority = (systems.get first).priority ∧ first < second)

theorem goesFirst_or_goesFirst (systems : List (Descriptor β))
    {first second : Fin systems.length} (hne : first ≠ second) :
    GoesFirst systems first second ∨ GoesFirst systems second first := by
  have hpos : first < second ∨ second < first := by omega
  rw [GoesFirst, GoesFirst]
  omega

def TagsInOrder (systems : List (Descriptor β)) (tags : TagOrder)
    (first second : Fin systems.length) : Prop :=
  ∃ earlier later, (systems.get first).tag? = some earlier ∧
    (systems.get second).tag? = some later ∧ TransGen tags.Declares earlier later

theorem mem_laterTags {tags : TagOrder} {descriptor : Descriptor β} {tag : Tag} :
    tag ∈ laterTags tags descriptor ↔
      ∃ earlier, descriptor.tag? = some earlier ∧ TransGen tags.Declares earlier tag := by
  rw [laterTags]
  cases hearlier : descriptor.tag? with
  | none => simp
  | some earlier => simp [TagOrder.mem_reachableFrom]

theorem any_laterTags_eq_true_iff {systems : List (Descriptor β)} {tags : TagOrder}
    {first second : Fin systems.length} :
    (systems.get second).tag?.any
        (fun tag => decide (tag ∈ laterTags tags (systems.get first))) = true ↔
      TagsInOrder systems tags first second := by
  rw [Option.any_eq_true]
  constructor
  · rintro ⟨later, hlater, hmem⟩
    obtain ⟨earlier, hearlier, hchain⟩ := mem_laterTags.mp (of_decide_eq_true hmem)
    exact ⟨earlier, later, hearlier, hlater, hchain⟩
  · rintro ⟨earlier, later, hearlier, hlater, hchain⟩
    exact ⟨later, hlater, decide_eq_true (mem_laterTags.mpr ⟨earlier, hearlier, hchain⟩)⟩

theorem find?_filter_before (conflicts : List Edge) (before after : Nat) :
    ((conflicts.filter fun edge => edge.before == before).find? fun edge =>
        edge.after == after) =
      conflicts.find? fun edge => edge.before == before && edge.after == after := by
  rw [List.find?_filter]
  congr 1
  funext edge
  rw [Bool.decide_and, Bool.decide_eq_true, Bool.decide_eq_true]

/-- An edge from a position is the first one that the conflicts give for its target, or, if
they give none, the one that the tags give. -/
theorem mem_edgesFrom {systems : List (Descriptor β)} {conflicts : List Edge}
    {tags : TagOrder} {first : Fin systems.length} {edge : Edge} :
    edge ∈ edgesFrom systems conflicts tags first ↔
      ∃ second : Fin systems.length,
        conflicts.find? (fun other => other.before == first.val && other.after == second.val)
            = some edge ∨
          ((∀ other ∈ conflicts, ¬ (other.before = first.val ∧ other.after = second.val)) ∧
            first ≠ second ∧ TagsInOrder systems tags first second ∧
            edge = ⟨first, second, .explicitTag⟩) := by
  simp only [edgesFrom, List.mem_filterMap, List.mem_finRange, true_and, find?_filter_before]
  refine exists_congr fun second => ?_
  cases hfound : conflicts.find? fun other =>
      other.before == first.val && other.after == second.val with
  | some found =>
      have hmem := List.mem_of_find?_eq_some hfound
      have htest := List.find?_some hfound
      rw [Bool.and_eq_true, beq_iff_eq, beq_iff_eq] at htest
      constructor
      · exact Or.inl
      · rintro (heq | ⟨hnone, -⟩)
        · exact heq
        · exact absurd htest (hnone found hmem)
  | none =>
      have hnone : ∀ other ∈ conflicts,
          ¬ (other.before = first.val ∧ other.after = second.val) := by
        intro other hother htest
        have hfail := List.find?_eq_none.mp hfound other hother
        simp [htest] at hfail
      simp only [Option.ite_none_right_eq_some, Option.some.injEq, any_laterTags_eq_true_iff,
        Fin.val_ne_iff, reduceCtorEq, false_or]
      constructor
      · rintro ⟨⟨hne, htags⟩, heq⟩
        exact ⟨hnone, hne, htags, heq.symm⟩
      · rintro ⟨-, hne, htags, heq⟩
        exact ⟨⟨hne, htags⟩, heq.symm⟩

theorem ends_of_mem_edgesFrom {systems : List (Descriptor β)} {conflicts : List Edge}
    {tags : TagOrder} {first : Fin systems.length} {edge : Edge}
    (hedge : edge ∈ edgesFrom systems conflicts tags first) :
    edge.before = first ∧ ∃ second : Fin systems.length, edge.after = second := by
  obtain ⟨second, hfound | ⟨-, -, -, rfl⟩⟩ := mem_edgesFrom.mp hedge
  · have htest := List.find?_some hfound
    rw [Bool.and_eq_true, beq_iff_eq, beq_iff_eq] at htest
    exact ⟨htest.1, second, htest.2⟩
  · exact ⟨rfl, second, rfl⟩

section Assembled

variable {systems : List (Descriptor β)} {pairs : List (SystemPair systems.length)}
variable {tags : TagOrder}

@[simp]
theorem size_assembled : (assembled systems pairs tags).size = systems.length := by
  simp [assembled, size]

/-- Every edge joins two positions of the list. -/
theorem fin_of_leads_assembled {before after : Nat}
    (hleads : (assembled systems pairs tags).Leads before after) :
    ∃ first second : Fin systems.length, before = first ∧ after = second := by
  obtain ⟨edge, hedge, rfl, rfl⟩ := hleads
  obtain ⟨first, -, hedge⟩ := List.mem_flatMap.mp hedge
  obtain ⟨hbefore, second, hafter⟩ := ends_of_mem_edgesFrom hedge
  exact ⟨first, second, hbefore, hafter⟩

/-- An edge joins two positions if a pair is directed that way or the tags are in order. -/
theorem leads_assembled_iff {first second : Fin systems.length} :
    (assembled systems pairs tags).Leads first second ↔
      (∃ pair ∈ pairs, (directed systems pair).before = first ∧
          (directed systems pair).after = second) ∨
        (first ≠ second ∧ TagsInOrder systems tags first second) := by
  constructor
  · rintro ⟨edge, hedge, hbefore, hafter⟩
    obtain ⟨start, -, hedge⟩ := List.mem_flatMap.mp hedge
    have hstart : start = first :=
      Fin.ext ((ends_of_mem_edgesFrom hedge).1.symm.trans hbefore)
    subst hstart
    obtain ⟨goal, hfound | ⟨-, hne, htags, rfl⟩⟩ := mem_edgesFrom.mp hedge
    · obtain ⟨pair, hpair, rfl⟩ := List.mem_map.mp (List.mem_of_find?_eq_some hfound)
      exact Or.inl ⟨pair, hpair, hbefore, hafter⟩
    · have hgoal : goal = second := Fin.ext hafter
      subst hgoal
      exact Or.inr ⟨hne, htags⟩
  · intro hcause
    by_cases hpair : ∃ pair ∈ pairs, (directed systems pair).before = first ∧
        (directed systems pair).after = second
    · obtain ⟨pair, hpair, hbefore, hafter⟩ := hpair
      have hsome : ((pairs.map (directed systems)).find? fun other =>
          other.before == first.val && other.after == second.val).isSome = true := by
        rw [List.find?_isSome]
        exact ⟨_, List.mem_map_of_mem hpair, by simp [hbefore, hafter]⟩
      obtain ⟨edge, hfound⟩ := Option.isSome_iff_exists.mp hsome
      have htest := List.find?_some hfound
      rw [Bool.and_eq_true, beq_iff_eq, beq_iff_eq] at htest
      exact ⟨edge, List.mem_flatMap.mpr ⟨first, List.mem_finRange first,
        mem_edgesFrom.mpr ⟨second, Or.inl hfound⟩⟩, htest⟩
    · obtain ⟨hne, htags⟩ := hcause.resolve_left hpair
      refine ⟨⟨first, second, .explicitTag⟩, List.mem_flatMap.mpr ⟨first,
        List.mem_finRange first, mem_edgesFrom.mpr ⟨second, Or.inr ⟨?_, hne, htags, rfl⟩⟩⟩,
        rfl, rfl⟩
      intro other hother hends
      obtain ⟨pair, hmem, rfl⟩ := List.mem_map.mp hother
      exact hpair ⟨pair, hmem, hends⟩

end Assembled

section Conflicting

variable {systems : List (Descriptor β)} {tags : TagOrder}

theorem mem_conflicting {pair : SystemPair systems.length} :
    pair ∈ SystemPair.conflicting systems ↔
      pair.first < pair.second ∧
        (systems.get pair.first).conflicts (systems.get pair.second) = true := by
  simp only [SystemPair.conflicting, List.mem_flatMap, List.mem_filterMap,
    List.mem_finRange, true_and, Option.ite_none_right_eq_some, Option.some.injEq]
  constructor
  · rintro ⟨first, second, hcond, rfl⟩
    exact hcond
  · intro hcond
    exact ⟨pair.first, pair.second, hcond, rfl⟩

theorem directed_eq (pair : SystemPair systems.length) :
    directed systems pair =
      if (systems.get pair.second).priority < (systems.get pair.first).priority then
        ⟨pair.first, pair.second, .priority⟩
      else if (systems.get pair.first).priority < (systems.get pair.second).priority then
        ⟨pair.second, pair.first, .priority⟩
      else ⟨pair.first, pair.second, .dataConflict⟩ :=
  rfl

/-- The pairs in conflict are directed by the right of way. -/
theorem exists_directed_iff {first second : Fin systems.length} :
    (∃ pair ∈ SystemPair.conflicting systems, (directed systems pair).before = first ∧
        (directed systems pair).after = second) ↔
      (systems.get first).conflicts (systems.get second) = true ∧
        GoesFirst systems first second := by
  constructor
  · rintro ⟨⟨left, right⟩, hpair, hbefore, hafter⟩
    obtain ⟨hlt, hconflict⟩ := mem_conflicting.mp hpair
    simp only [directed_eq] at hbefore hafter
    split at hbefore
    case isTrue hpriority =>
      simp only [if_pos hpriority] at hafter
      obtain rfl : left = first := Fin.ext hbefore
      obtain rfl : right = second := Fin.ext hafter
      exact ⟨hconflict, Or.inl hpriority⟩
    case isFalse hnot =>
      simp only [if_neg hnot] at hafter
      split at hbefore
      case isTrue hpriority =>
        simp only [if_pos hpriority] at hafter
        obtain rfl : right = first := Fin.ext hbefore
        obtain rfl : left = second := Fin.ext hafter
        exact ⟨(Descriptor.conflicts_comm _ _).trans hconflict, Or.inl hpriority⟩
      case isFalse hnot' =>
        simp only [if_neg hnot'] at hafter
        obtain rfl : left = first := Fin.ext hbefore
        obtain rfl : right = second := Fin.ext hafter
        exact ⟨hconflict, Or.inr ⟨by omega, hlt⟩⟩
  · rintro ⟨hconflict, hfirst⟩
    rcases Nat.lt_trichotomy first.val second.val with hlt | heq | hgt
    · refine ⟨⟨first, second⟩, mem_conflicting.mpr ⟨hlt, hconflict⟩, ?_⟩
      have hnot : ¬ (systems.get first).priority < (systems.get second).priority := by
        rw [GoesFirst] at hfirst
        omega
      simp only [directed_eq, if_neg hnot]
      split <;> exact ⟨rfl, rfl⟩
    · obtain rfl : first = second := Fin.ext heq
      rw [GoesFirst] at hfirst
      omega
    · have hpriority : (systems.get second).priority < (systems.get first).priority := by
        rw [GoesFirst] at hfirst
        omega
      have hnot : ¬ (systems.get first).priority < (systems.get second).priority := by omega
      refine ⟨⟨second, first⟩,
        mem_conflicting.mpr ⟨hgt, (Descriptor.conflicts_comm _ _).trans hconflict⟩, ?_⟩
      simp only [directed_eq, if_neg hnot, if_pos hpriority, and_self]

/-- Some edge goes from one system to another one if they conflict and the first has the
right of way, or if their tags are in order. -/
theorem leads_conflicting_iff {first second : Fin systems.length} :
    (assembled systems (SystemPair.conflicting systems) tags).Leads first second ↔
      ((systems.get first).conflicts (systems.get second) = true ∧
          GoesFirst systems first second) ∨
        (first ≠ second ∧ TagsInOrder systems tags first second) := by
  rw [leads_assembled_iff, exists_directed_iff]

end Conflicting

end Graph

end TickWaves
