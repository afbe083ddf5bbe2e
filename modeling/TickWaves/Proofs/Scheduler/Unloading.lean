import TickWaves.Proofs.Scheduler.Forgetting
import TickWaves.Proofs.Scheduler.Operations
import TickWaves.Proofs.Scheduler.Retention
import TickWaves.Proofs.System.Removal

/-!
# A module goes as its systems do

The removal of a system changes the table, the plan and the profiler, each by leaving out one
identifier.  What is left out of a store does not depend on the order, so a module that is
removed leaves the scheduler that its systems leave when they are removed one by one
(`unloadsOneByOne_of_reachable`).
-/

namespace TickWaves

universe u v

variable {β : Type u} {σ : Type v}

theorem Plan.without_eq_of_perm (plan : Plan β) {removed removed' : List SystemId}
    (hperm : removed.Perm removed') : plan.without removed = plan.without removed' := by
  have hsystem : PlannedSystem.without (β := β) removed = PlannedSystem.without removed' := by
    funext system
    simp only [PlannedSystem.without, hperm.mem_iff]
  rw [without, without, hsystem]

namespace Scheduler

def without (scheduler : Scheduler β) (removed : List SystemId) : Scheduler β :=
  { scheduler with
    table := scheduler.table.without removed
    plan := scheduler.plan.without removed
    isDirty := true
    profiler := scheduler.profiler.without removed }

theorem without_without (scheduler : Scheduler β) (first second : List SystemId) :
    (scheduler.without first).without second = scheduler.without (first ++ second) := by
  simp only [without, Table.without_without, Plan.without_without, Profiler.without_without]

theorem without_eq_of_perm (scheduler : Scheduler β) {removed removed' : List SystemId}
    (hperm : removed.Perm removed') : scheduler.without removed = scheduler.without removed' := by
  rw [without, without, scheduler.table.without_eq_of_perm hperm,
    scheduler.plan.without_eq_of_perm hperm, scheduler.profiler.without_eq_of_perm hperm]

section Removal

variable {scheduler : Scheduler β} (hwf : scheduler.table.WellFormed)
variable (hids : (scheduler.plan.systems.map PlannedSystem.id).Nodup)
include hwf hids

theorem unregister_of_mem {id : SystemId}
    (hid : id ∈ scheduler.table.toList.map Descriptor.id) :
    scheduler.unregister id = .ok (scheduler.without [id]) := by
  obtain ⟨descriptor, hdescriptor, rfl⟩ := List.mem_map.mp hid
  rw [unregister, hwf.unregister_of_mem hdescriptor]
  dsimp only
  rw [forget_eq hids]
  rfl

theorem unregisterModule_eq (owner : ModuleId) :
    scheduler.unregisterModule owner =
      if scheduler.table.systemsOf owner = [] then .error (.unknownModule owner)
      else .ok (scheduler.table.systemsOf owner,
        scheduler.without (scheduler.table.systemsOf owner)) := by
  rw [unregisterModule, hwf.unregisterModule_eq]
  by_cases hnone : scheduler.table.systemsOf owner = []
  · rw [if_pos hnone, if_pos hnone]
  · rw [if_neg hnone, if_neg hnone]
    dsimp only
    rw [foldl_forget_eq hids]
    rfl

/-- Systems that are removed one by one leave the scheduler without them. -/
theorem foldlM_unregister_eq {ids : List SystemId} (hne : ids ≠ []) (hnodup : ids.Nodup)
    (hmem : ∀ id ∈ ids, id ∈ scheduler.table.toList.map Descriptor.id) :
    ids.foldlM unregister scheduler = .ok (scheduler.without ids) := by
  induction ids generalizing scheduler with
  | nil => exact absurd rfl hne
  | cons id ids ih =>
      obtain ⟨hid, hrest⟩ := List.nodup_cons.mp hnodup
      have hfirst : scheduler.unregister id = .ok (scheduler.without [id]) :=
        unregister_of_mem hwf hids (hmem id List.mem_cons_self)
      have hlater : ids.foldlM unregister (scheduler.without [id]) =
          .ok (scheduler.without (id :: ids)) := by
        by_cases hlast : ids = []
        · rw [hlast]
          rfl
        · have hids' : ((scheduler.without [id]).plan.systems.map PlannedSystem.id).Nodup := by
            rw [without, Plan.map_id_systems_without]
            exact hids
          have hmem' : ∀ other ∈ ids,
              other ∈ (scheduler.without [id]).table.toList.map Descriptor.id := by
            intro other hother
            apply Table.mem_map_id_without.mpr
            refine ⟨hmem other (List.mem_cons_of_mem _ hother), ?_⟩
            intro hsame
            exact hid (List.mem_singleton.mp hsame ▸ hother)
          rw [ih (hwf.without [id]) hids' hlast hrest hmem', without_without]
          rfl
      rw [List.foldlM_cons, hfirst]
      exact hlater

end Removal

/-- A module that owns systems goes as they do, in any order.  One that owns none is unknown,
and nothing changes. -/
structure UnloadsOneByOne (σ : Type v) [Behaviour β σ] (scheduler : Scheduler β)
    (owner : ModuleId) : Prop where
  ordered : scheduler.table.systemsOf owner =
    (scheduler.table.toList.filter fun descriptor => descriptor.owner? = some owner).map
      Descriptor.id
  unknown_iff : scheduler.unregisterModule owner = .error (.unknownModule owner) ↔
    scheduler.table.systemsOf owner = []
  unchanged : scheduler.table.systemsOf owner = [] →
    scheduler.perform (.unregisterModule owner : Operation β σ) = scheduler
  removed : scheduler.table.systemsOf owner ≠ [] → ∃ result,
    scheduler.unregisterModule owner = .ok (scheduler.table.systemsOf owner, result) ∧
      ∀ ids : List SystemId, ids.Perm (scheduler.table.systemsOf owner) →
        ids.foldlM unregister scheduler = .ok result

/-- In every state that operations lead to, a module goes as its systems do. -/
theorem unloadsOneByOne_of_reachable [Behaviour β σ] {config : Config} {pool : Pool}
    {scheduler : Scheduler β} (hreach : Reachable σ config pool scheduler) (owner : ModuleId) :
    scheduler.UnloadsOneByOne σ owner := by
  obtain ⟨history, hhistory⟩ := hreach.exists_recounts
  have hcurrent := hhistory.isCurrent
  have hmodule := unregisterModule_eq hcurrent.table hcurrent.distinct owner
  constructor
  case ordered => exact Table.systemsOf_eq scheduler.table owner
  case unknown_iff =>
    rw [hmodule]
    constructor
    · intro hunknown
      by_contra hsome
      rw [if_neg hsome] at hunknown
      cases hunknown
    · intro hnone
      rw [if_pos hnone]
  case unchanged =>
    intro hnone
    rw [perform, hmodule, if_pos hnone]
  case removed =>
    intro hsome
    refine ⟨scheduler.without (scheduler.table.systemsOf owner), ?_, ?_⟩
    · rw [hmodule, if_neg hsome]
    · intro ids hperm
      have hnodup : ids.Nodup :=
        hperm.nodup_iff.mpr (hcurrent.table.nodup_systemsOf owner)
      have hmem : ∀ id ∈ ids, id ∈ scheduler.table.toList.map Descriptor.id := by
        intro id hid
        exact (scheduler.table.systemsOf_sublist owner).subset (hperm.subset hid)
      have hne : ids ≠ [] := by
        intro hnone
        rw [hnone] at hperm
        exact hsome hperm.nil_eq.symm
      calc
        ids.foldlM unregister scheduler = .ok (scheduler.without ids) :=
          foldlM_unregister_eq hcurrent.table hcurrent.distinct hne hnodup hmem
        _ = .ok (scheduler.without (scheduler.table.systemsOf owner)) := by
          rw [scheduler.without_eq_of_perm hperm]

/-- Two of three demo systems belong to one module, which goes after a plan was made. -/
theorem unloadsOneByOne_of_reachable_demo :
    ∃ scheduler : Scheduler Demo.Body,
      Reachable Demo.Stage (Config.ofCores 4) (.threads 3 "demo") scheduler ∧
        scheduler.isDirty = false ∧ scheduler.table.size = 3 ∧
        scheduler.UnloadsOneByOne Demo.Stage ⟨7⟩ ∧
        ∃ result, scheduler.unregisterModule ⟨7⟩ = .ok ([⟨1⟩, ⟨3⟩], result) ∧
          [⟨3⟩, ⟨1⟩].foldlM unregister scheduler = .ok result := by
  have hstart : Reachable Demo.Stage (Config.ofCores 4) (.threads 3 "demo")
      (withPool (Config.ofCores 4) (.threads 3 "demo") : Scheduler Demo.Body) := .start
  have hinput := hstart.register
    (((Descriptor.ofBody "input" ⟨.input, false⟩).writing ⟨1⟩).ownedBy ⟨7⟩) ⟨1⟩ rfl
  have hmove := hinput.register
    ((Descriptor.ofBody "move" ⟨.integrate, false⟩).reading ⟨1⟩) ⟨2⟩ rfl
  have hshow := hmove.register
    (((Descriptor.ofBody "show" ⟨.render, true⟩).exclusive).ownedBy ⟨7⟩) ⟨3⟩ rfl
  obtain ⟨scheduler, hready, hsize, howned, hreach⟩ : ∃ scheduler : Scheduler Demo.Body,
      scheduler.prepare.isOk = true ∧ scheduler.table.size = 3 ∧
        scheduler.table.systemsOf ⟨7⟩ = [⟨1⟩, ⟨3⟩] ∧
          Reachable Demo.Stage (Config.ofCores 4) (.threads 3 "demo") scheduler := by
    refine ⟨_, ?_, ?_, ?_, hshow⟩
    · decide +kernel
    · decide +kernel
    · decide +kernel
  cases hprepare : scheduler.prepare with
  | error dependency =>
      rw [hprepare] at hready
      cases hready
  | ok prepared =>
      have hprepared := hreach.prepare hprepare
      have hunloads := unloadsOneByOne_of_reachable hprepared ⟨7⟩
      rw [← table_of_prepare hprepare] at hsize howned
      obtain ⟨result, hmodule, hsystems⟩ := hunloads.removed (by simp [howned])
      rw [howned] at hmodule hsystems
      exact ⟨prepared, hprepared, isDirty_of_prepare hprepare, hsize, hunloads, result, hmodule,
        hsystems _ (List.Perm.swap _ _ _)⟩

end Scheduler

end TickWaves
