import TickWaves.Proofs.Plan.Layout

/-!
# Plans that have lost bodies

A system that is removed loses its body in the plan at hand, and nothing else of the plan
changes.  So if no identifier is used twice, then a plan from which systems were released
one after the other is the plan as it was made without the bodies of these systems
(`Plan.release_eq_without`, `Plan.without_without`).  It is still tidy: what was said of its
positions and identifiers holds as before (`Plan.isTidy_without_of_build`).
-/

namespace TickWaves

universe u

variable {β : Type u}

/-- The system, which has lost its body if it is one of those that were removed. -/
def PlannedSystem.without (removed : List SystemId) (system : PlannedSystem β) :
    PlannedSystem β :=
  if system.id ∈ removed then { system with body? := none } else system

namespace PlannedSystem

@[simp]
theorem id_without (removed : List SystemId) (system : PlannedSystem β) :
    (system.without removed).id = system.id := by
  rw [without]
  split <;> rfl

theorem body?_without (removed : List SystemId) (system : PlannedSystem β) :
    (system.without removed).body? = if system.id ∈ removed then none else system.body? := by
  rw [without]
  split <;> rfl

theorem without_of_not_mem {removed : List SystemId} {system : PlannedSystem β}
    (hid : system.id ∉ removed) : system.without removed = system :=
  if_neg hid

theorem without_without (first second : List SystemId) (system : PlannedSystem β) :
    (system.without first).without second = system.without (first ++ second) := by
  by_cases hfirst : system.id ∈ first
  · by_cases hsecond : system.id ∈ second <;> simp [without, hfirst, hsecond]
  · simp [without, hfirst]

end PlannedSystem

namespace Plan

def without (plan : Plan β) (removed : List SystemId) : Plan β :=
  { plan with systems := plan.systems.map (PlannedSystem.without removed) }

@[simp]
theorem generation_without (plan : Plan β) (removed : List SystemId) :
    (plan.without removed).generation = plan.generation :=
  rfl

@[simp]
theorem map_id_systems_without (plan : Plan β) (removed : List SystemId) :
    (plan.without removed).systems.map PlannedSystem.id =
      plan.systems.map PlannedSystem.id := by
  rw [without, List.map_map]
  exact List.map_congr_left fun system _ => system.id_without removed

@[simp]
theorem without_nil (plan : Plan β) : plan.without [] = plan := by
  have hsame : (PlannedSystem.without [] : PlannedSystem β → PlannedSystem β) = id := by
    funext system
    exact PlannedSystem.without_of_not_mem List.not_mem_nil
  rw [without, hsame, List.map_id]

theorem without_without (plan : Plan β) (first second : List SystemId) :
    (plan.without first).without second = plan.without (first ++ second) := by
  rw [without, without, without, List.map_map]
  congr 2
  funext system
  exact system.without_without first second

/-- Of systems with distinct identifiers, the one that is released loses its body. -/
theorem released_eq_map {id : SystemId} {systems : List (PlannedSystem β)}
    (hids : (systems.map PlannedSystem.id).Nodup) :
    released id systems = systems.map (PlannedSystem.without [id]) := by
  induction systems with
  | nil => rfl
  | cons system rest ih =>
      obtain ⟨hsystem, hrest⟩ := List.nodup_cons.mp hids
      rw [released, List.map_cons]
      split
      case isTrue hlater =>
        obtain ⟨other, hother, hid⟩ := List.any_eq_true.mp hlater
        have hne : system.id ≠ id := by
          rintro rfl
          exact hsystem (beq_iff_eq.mp hid ▸ List.mem_map_of_mem hother)
        rw [ih hrest, PlannedSystem.without_of_not_mem (mt List.mem_singleton.mp hne)]
      case isFalse hlast =>
        have hkept : rest.map (PlannedSystem.without [id]) = rest := by
          rw [List.map_congr_left (g := fun other => other), List.map_id']
          intro other hother
          apply PlannedSystem.without_of_not_mem
          rw [List.mem_singleton]
          exact fun hid => hlast (List.any_eq_true.mpr ⟨other, hother, beq_iff_eq.mpr hid⟩)
        rw [hkept]
        split
        case isTrue hid => rw [PlannedSystem.without, if_pos (List.mem_singleton.mpr hid)]
        case isFalse hne => rw [PlannedSystem.without_of_not_mem (mt List.mem_singleton.mp hne)]

theorem release_eq_without {plan : Plan β} (hids : (plan.systems.map PlannedSystem.id).Nodup)
    (id : SystemId) : plan.release id = plan.without [id] := by
  rw [release, released_eq_map hids]
  rfl

/-- No position is in two places of the waves, no two systems have one identifier, and only
systems that were removed have lost their bodies. -/
structure IsTidy (plan : Plan β) (removed : List SystemId) : Prop where
  lt_length : ∀ {node index}, plan.IsIn node index → node < plan.systems.length
  eq_index : ∀ {node first second}, plan.IsIn node first → plan.IsIn node second →
    first = second
  nodup_nodes : ∀ wave ∈ plan.waves, wave.nodes.Nodup
  nodup_ids : (plan.systems.map PlannedSystem.id).Nodup
  exists_body : ∀ system ∈ plan.systems, system.id ∉ removed →
    ∃ body, system.body? = some body

variable {plan : Plan β} {removed : List SystemId}

theorem IsTidy.without (htidy : plan.IsTidy removed) (others : List SystemId) :
    (plan.without others).IsTidy (others ++ removed) where
  lt_length hin := by
    rw [Plan.without, List.length_map]
    exact htidy.lt_length hin
  eq_index := htidy.eq_index
  nodup_nodes := htidy.nodup_nodes
  nodup_ids := by
    rw [map_id_systems_without]
    exact htidy.nodup_ids
  exists_body := by
    intro system hsystem hid
    obtain ⟨whole, hwhole, rfl⟩ := List.mem_map.mp hsystem
    rw [PlannedSystem.id_without, List.mem_append, not_or] at hid
    rw [PlannedSystem.without_of_not_mem hid.1]
    exact htidy.exists_body whole hwhole hid.2

section Built

variable {systems : List (Descriptor β)} {tags : TagOrder} {generation : Nat}
variable (hbuild : build systems tags generation = .ok plan)
variable (hids : (systems.map Descriptor.id).Nodup)
include hbuild hids

theorem isTidy_of_build : plan.IsTidy [] where
  lt_length hin := by
    rw [length_systems_of_build hbuild]
    exact IsIn.lt_length hbuild hin
  eq_index := IsIn.eq_index hbuild
  nodup_nodes _ := nodup_nodes_of_build hbuild
  nodup_ids := by rwa [map_id_systems_of_build hbuild]
  exists_body := by
    intro system hsystem _
    obtain ⟨node, hnode⟩ := List.getElem?_of_mem hsystem
    rw [getElem?_systems_of_build hbuild] at hnode
    obtain ⟨descriptor, -, rfl⟩ := Option.map_eq_some_iff.mp hnode
    exact ⟨_, rfl⟩

/-- A plan that could be made for systems with distinct identifiers is tidy, and stays so
when systems are removed. -/
theorem isTidy_without_of_build (removed : List SystemId) :
    (plan.without removed).IsTidy removed := by
  have htidy := (isTidy_of_build hbuild hids).without removed
  rwa [List.append_nil] at htidy

end Built

end Plan

end TickWaves
