import TickWaves.Proofs.Plan.Layout
import TickWaves.Tick.Execution

/-!
# A report has one outcome for every system

Whatever was decided in a tick, its outcomes go through the waves and name the system at
every position once (`map_id_outcomes_perm`).
-/

namespace TickWaves.Plan

universe u v

variable {β : Type u} {σ : Type v}

theorem map_id_outcomes (plan : Plan β) (settled : List Settled) :
    (plan.outcomes settled).map Outcome.id =
      (plan.waves.flatMap Wave.nodes).filterMap fun node =>
        plan.systems[node]?.map PlannedSystem.id := by
  have hwave : ∀ entry : Wave × Nat,
      ((plan.systemsAt entry.1.nodes).map fun located =>
          outcomeOf settled entry.2 located.1 located.2).map Outcome.id =
        entry.1.nodes.filterMap fun node => plan.systems[node]?.map PlannedSystem.id := by
    intro entry
    rw [List.map_map, systemsAt, List.map_filterMap]
    refine List.filterMap_congr fun node _ => ?_
    rw [Option.map_map]
    rfl
  calc
    (plan.outcomes settled).map Outcome.id =
        plan.waves.zipIdx.flatMap fun entry => entry.1.nodes.filterMap fun node =>
          plan.systems[node]?.map PlannedSystem.id := by
      rw [outcomes, List.map_flatMap]
      exact List.flatMap_congr fun entry _ => hwave entry
    _ = plan.waves.flatMap fun wave => wave.nodes.filterMap fun node =>
          plan.systems[node]?.map PlannedSystem.id := by
      conv_rhs => rw [← List.zipIdx_map_fst 0 plan.waves, List.flatMap_map]
    _ = (plan.waves.flatMap Wave.nodes).filterMap fun node =>
          plan.systems[node]?.map PlannedSystem.id := by
      rw [List.filterMap_flatMap]

theorem filterMap_range_getElem? {α γ : Type*} (elements : List α) (f : α → γ) :
    ((List.range elements.length).filterMap fun node => elements[node]?.map f) =
      elements.map f := by
  induction elements with
  | nil => rfl
  | cons head rest ih =>
      rw [List.length_cons, List.range_succ_eq_map, List.filterMap_cons]
      simp only [List.getElem?_cons_zero, Option.map_some, List.filterMap_map, List.map_cons]
      exact congrArg _ ih

/-- The outcomes of a tick name every system of the list once. -/
theorem map_id_outcomes_perm {systems : List (Descriptor β)} {tags : TagOrder}
    {generation : Nat} {plan : Plan β} (hbuild : build systems tags generation = .ok plan)
    (settled : List Settled) :
    ((plan.outcomes settled).map Outcome.id).Perm (systems.map Descriptor.id) := by
  rw [map_id_outcomes, ← map_id_systems_of_build hbuild, ← filterMap_range_getElem?,
    length_systems_of_build hbuild]
  exact (flatMap_nodes_perm_of_build hbuild).filterMap _

end TickWaves.Plan
