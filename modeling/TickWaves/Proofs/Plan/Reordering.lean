import Mathlib.Data.List.NodupEquivFin
import TickWaves.Proofs.Plan.Placement

/-!
# The order of registration breaks ties

If any two systems in conflict have different priorities, then it does not matter in which
order the systems stand in their list: the same constraints hold, and each wave has the same
members (`Plan.reordersAlike_of_perm`).
-/

namespace TickWaves

universe u

variable {β : Type u}

def Descriptor.IsUntied (first second : Descriptor β) : Prop :=
  first.conflicts second = true → first.priority ≠ second.priority

instance (first second : Descriptor β) : Decidable (first.IsUntied second) :=
  inferInstanceAs (Decidable (_ → _))

theorem Descriptor.IsUntied.symm {first second : Descriptor β} (huntied : first.IsUntied second) :
    second.IsUntied first :=
  fun hconflict => (huntied ((conflicts_comm first second).trans hconflict)).symm

namespace Plan

/-- Two plans have the same edges and, wave by wave, the same members. -/
structure IsReordering (plan other : Plan β) : Prop where
  precedences : ∀ precedence, precedence ∈ other.precedences ↔ precedence ∈ plan.precedences
  waves : List.Forall₂ (fun wave wave' => wave'.members.Perm wave.members)
    plan.waves other.waves

/-- Two lists of systems have plans at the same time, which are reorderings of each other. -/
structure ReordersAlike (systems others : List (Descriptor β)) (tags : TagOrder) : Prop where
  exists_iff : ∀ generation generation',
    (∃ plan, build systems tags generation = .ok plan) ↔
      ∃ other, build others tags generation' = .ok other
  isReordering : ∀ {generation generation' plan other},
    build systems tags generation = .ok plan → build others tags generation' = .ok other →
      plan.IsReordering other

section Perm

variable {systems others : List (Descriptor β)} {tags : TagOrder}

variable (tags) in
/-- Without ties, a list is placed wherever its systems are found again. -/
theorem exists_isPlacement_of_perm (hnodup : systems.Nodup) (hperm : systems.Perm others)
    (huntied : systems.Pairwise Descriptor.IsUntied) :
    ∃ place : Fin systems.length ≃ Fin others.length,
      Graph.IsPlacement systems tags others tags place ∧
        ∀ node, others.get (place node) = systems.get node := by
  classical
  have hnodup' : others.Nodup := hperm.nodup_iff.mp hnodup
  let place : Fin systems.length ≃ Fin others.length :=
    (hnodup.getEquiv systems).trans
      ((Equiv.subtypeEquivRight fun _ => hperm.mem_iff).trans (hnodup'.getEquiv others).symm)
  have hget : ∀ node, others.get (place node) = systems.get node := by
    intro node
    have hfound := (hnodup'.getEquiv others).apply_symm_apply
      ⟨systems.get node, hperm.mem_iff.mp (systems.get_mem node)⟩
    exact congrArg Subtype.val hfound
  refine ⟨place, Graph.isPlacement_of_get_eq hget place.injective ?_ fun _ _ hpair => hpair, hget⟩
  intro first second hconflict hpriority hlt
  exact absurd hpriority.symm (List.pairwise_iff_get.mp huntied first second hlt hconflict)

theorem exists_build_of_perm (hnodup : systems.Nodup) (hperm : systems.Perm others)
    (huntied : systems.Pairwise Descriptor.IsUntied) {generation generation' : Nat}
    (hother : ∃ other, build others tags generation' = .ok other) :
    ∃ plan, build systems tags generation = .ok plan := by
  obtain ⟨place, hplace, -⟩ := exists_isPlacement_of_perm tags hnodup hperm huntied
  rw [exists_build_eq_ok_iff] at hother ⊢
  exact hplace.embeds.isAcyclic hother

/-- The identifiers stay with the systems. -/
theorem idAt_extended {place : Fin systems.length → Fin others.length}
    (hget : ∀ node, others.get (place node) = systems.get node)
    (hlength : systems.length = others.length) (node : Nat) :
    (Graph.ofSystems others tags).idAt (Graph.extended place node) =
      (Graph.ofSystems systems tags).idAt node := by
  by_cases hnode : node < systems.length
  · lift node to Fin systems.length using hnode
    rw [Graph.extended_val, Graph.idAt_ofSystems, Graph.idAt_ofSystems, hget]
  · -- Outside both lists no identifier was assigned.
    have hnode' : ¬ node < others.length := hlength ▸ hnode
    simp [Graph.extended, hnode, Graph.idAt, Graph.ofSystems, Graph.assembled, hnode']

variable {generation generation' : Nat} {plan other : Plan β}
variable {place : Fin systems.length ≃ Fin others.length}

theorem isReordering_of_isPlacement
    (hplace : Graph.IsPlacement systems tags others tags place)
    (hget : ∀ node, others.get (place node) = systems.get node)
    (hbuild : build systems tags generation = .ok plan)
    (hother : build others tags generation' = .ok other) : plan.IsReordering other := by
  have htags : ∀ first second,
      Graph.TagsInOrder others tags (place first) (place second) →
        Graph.TagsInOrder systems tags first second :=
    fun _ _ => (Graph.tagsInOrder_iff_of_get_eq hget).mp
  constructor
  case precedences =>
    intro precedence
    rw [mem_precedences_iff hbuild, mem_precedences_iff hother]
    constructor
    · rintro ⟨first, second, hbefore, hafter, hbinds⟩
      obtain ⟨first, rfl⟩ := place.surjective first
      obtain ⟨second, rfl⟩ := place.surjective second
      rw [hget] at hbefore hafter
      exact ⟨first, second, hbefore, hafter, (hplace.binds_iff htags).mp hbinds⟩
    · rintro ⟨first, second, hbefore, hafter, hbinds⟩
      refine ⟨place first, place second, ?_, ?_, hplace.binds hbinds⟩
      · rw [hget, hbefore]
      · rw [hget, hafter]
  case waves =>
    have hlayers := (hplace.matches_of_surjective place.surjective htags).forall₂_layers
      (Graph.isScoped_ofSystems systems tags) (Graph.isScoped_ofSystems others tags)
    rw [waves_of_build hbuild, waves_of_build hother, List.forall₂_map_left_iff,
      List.forall₂_map_right_iff]
    refine hlayers.imp fun layer layer' hperm => ?_
    have hids : (layer.map (Graph.extended place)).map (Graph.ofSystems others tags).idAt =
        layer.map (Graph.ofSystems systems tags).idAt := by
      rw [List.map_map]
      refine List.map_congr_left fun node _ => idAt_extended hget ?_ node
      exact Fin.equiv_iff_eq.mp ⟨place⟩
    rw [← hids]
    exact hperm.map _

end Perm

/-- Systems without ties have the same plan in every order, but for the order of the members
in a wave. -/
theorem reordersAlike_of_perm {systems others : List (Descriptor β)} {tags : TagOrder}
    (hids : (systems.map Descriptor.id).Nodup) (hperm : systems.Perm others)
    (huntied : systems.Pairwise Descriptor.IsUntied) : ReordersAlike systems others tags where
  exists_iff generation generation' := by
    have hnodup : systems.Nodup := hids.of_map
    have huntied' : others.Pairwise Descriptor.IsUntied :=
      (hperm.pairwise_iff Descriptor.IsUntied.symm).mp huntied
    exact ⟨exists_build_of_perm (hperm.nodup_iff.mp hnodup) hperm.symm huntied',
      exists_build_of_perm hnodup hperm huntied⟩
  isReordering hbuild hother := by
    obtain ⟨place, hplace, hget⟩ := exists_isPlacement_of_perm tags hids.of_map hperm huntied
    exact isReordering_of_isPlacement hplace hget hbuild hother

/-- Two that read what a mover writes, one of them after a system without any conflict. -/
def ranked : List (Descriptor Unit) :=
  [((Descriptor.ofBody "draw" ()).withId ⟨4⟩).reading ⟨7⟩,
    (((Descriptor.ofBody "move" ()).withId ⟨2⟩).writing ⟨7⟩).withPriority 5,
    (((Descriptor.ofBody "score" ()).withId ⟨3⟩).reading ⟨7⟩).withTag ⟨2⟩,
    ((Descriptor.ofBody "input" ()).withId ⟨9⟩).withTag ⟨1⟩]

theorem reordersAlike_of_perm_ranked :
    (ranked.map Descriptor.id).Nodup ∧ ranked.Pairwise Descriptor.IsUntied ∧
      ReordersAlike ranked ranked.reverse (TagOrder.ofPairs [(⟨1⟩, ⟨2⟩)]) ∧
      ∃ plan other, build ranked (TagOrder.ofPairs [(⟨1⟩, ⟨2⟩)]) 1 = .ok plan ∧
        build ranked.reverse (TagOrder.ofPairs [(⟨1⟩, ⟨2⟩)]) 1 = .ok other ∧
          plan.waves ≠ other.waves ∧ plan.IsReordering other := by
  have hids : (ranked.map Descriptor.id).Nodup := by decide
  have huntied : ranked.Pairwise Descriptor.IsUntied := by decide +kernel
  have halike : ReordersAlike ranked ranked.reverse (TagOrder.ofPairs [(⟨1⟩, ⟨2⟩)]) :=
    reordersAlike_of_perm hids ranked.reverse_perm.symm huntied
  have hwaves : (build ranked (TagOrder.ofPairs [(⟨1⟩, ⟨2⟩)]) 1).toOption.map waves =
      some [⟨[⟨2⟩, ⟨9⟩], [1, 3]⟩, ⟨[⟨4⟩, ⟨3⟩], [0, 2]⟩] := by decide +kernel
  have hwaves' : (build ranked.reverse (TagOrder.ofPairs [(⟨1⟩, ⟨2⟩)]) 1).toOption.map waves =
      some [⟨[⟨9⟩, ⟨2⟩], [0, 2]⟩, ⟨[⟨3⟩, ⟨4⟩], [1, 3]⟩] := by decide +kernel
  refine ⟨hids, huntied, halike, ?_⟩
  cases hbuild : build ranked (TagOrder.ofPairs [(⟨1⟩, ⟨2⟩)]) 1 with
  | error dependency =>
      rw [hbuild] at hwaves
      cases hwaves
  | ok plan =>
      cases hother : build ranked.reverse (TagOrder.ofPairs [(⟨1⟩, ⟨2⟩)]) 1 with
      | error dependency =>
          rw [hother] at hwaves'
          cases hwaves'
      | ok other =>
          rw [hbuild] at hwaves
          rw [hother] at hwaves'
          refine ⟨plan, other, rfl, rfl, fun heq => ?_, halike.isReordering hbuild hother⟩
          have hplan := Option.some.inj hwaves
          rw [heq, Option.some.inj hwaves'] at hplan
          exact absurd hplan (by decide)

end Plan

end TickWaves
