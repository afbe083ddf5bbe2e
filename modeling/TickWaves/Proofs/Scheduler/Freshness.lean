import TickWaves.Demo.Systems
import TickWaves.Proofs.System.Removal
import TickWaves.Proofs.Tick.Outcomes

/-!
# A clean scheduler runs the plan of its systems

Every operation that changes the systems or their tags marks the plan as out of date, and
only a rebuild takes the mark off.  So in every state that operations lead to, a plan that
is not marked is the one that would be made now, with all its bodies in place; a tick
reports on the registered systems and on no others.
-/

namespace TickWaves.Scheduler

universe u v

variable {β : Type u}

/-- The states that operations lead to from a new scheduler.  An operation that fails
leaves the state as it is and adds none. -/
inductive Reachable (σ : Type v) [Behaviour β σ] (config : Config) (pool : Pool) :
    Scheduler β → Prop
  | start : Reachable σ config pool (withPool config pool)
  | register {scheduler result : Scheduler β} (descriptor : Descriptor β) (id : SystemId) :
      Reachable σ config pool scheduler → scheduler.register descriptor = .ok (id, result) →
        Reachable σ config pool result
  | unregister {scheduler result : Scheduler β} (id : SystemId) :
      Reachable σ config pool scheduler → scheduler.unregister id = .ok result →
        Reachable σ config pool result
  | unregisterModule {scheduler result : Scheduler β} (owner : ModuleId)
      (removed : List SystemId) :
      Reachable σ config pool scheduler →
        scheduler.unregisterModule owner = .ok (removed, result) →
          Reachable σ config pool result
  | setTagOrder {scheduler : Scheduler β} (tags : TagOrder) :
      Reachable σ config pool scheduler →
        Reachable σ config pool (scheduler.setTagOrder tags)
  | prepare {scheduler result : Scheduler β} :
      Reachable σ config pool scheduler → scheduler.prepare = .ok result →
        Reachable σ config pool result
  | rebuild {scheduler result : Scheduler β} :
      Reachable σ config pool scheduler → scheduler.rebuild = .ok result →
        Reachable σ config pool result
  | runTick {scheduler : Scheduler β} (context : TickContext) (halt : Nat → σ → Bool)
      (shared : σ) :
      Reachable σ config pool scheduler →
        Reachable σ config pool (scheduler.runTick context halt shared).2.1

section Operations

variable {scheduler result : Scheduler β}

theorem register_eq_ok {descriptor : Descriptor β} {id : SystemId}
    (hregister : scheduler.register descriptor = .ok (id, result)) :
    ∃ table, scheduler.table.register descriptor = .ok (id, table) ∧
      result = { scheduler with table := table, isDirty := true } := by
  rw [register] at hregister
  split at hregister
  · cases hregister
  · rename_i id' table hfound
    obtain ⟨rfl, rfl⟩ := Prod.mk.inj (Except.ok.inj hregister)
    exact ⟨table, hfound, rfl⟩

theorem unregister_eq_ok {id : SystemId} (hunregister : scheduler.unregister id = .ok result) :
    ∃ descriptor table, scheduler.table.unregister id = .ok (descriptor, table) ∧
      result = { scheduler.forget id with table := table, isDirty := true } := by
  rw [unregister] at hunregister
  split at hunregister
  · cases hunregister
  · rename_i descriptor table hfound
    exact ⟨descriptor, table, hfound, (Except.ok.inj hunregister).symm⟩

theorem unregisterModule_eq_ok {owner : ModuleId} {removed : List SystemId}
    (hunregister : scheduler.unregisterModule owner = .ok (removed, result)) :
    ∃ table, scheduler.table.unregisterModule owner = .ok (removed, table) ∧
      result = { removed.foldl forget scheduler with table := table, isDirty := true } := by
  rw [unregisterModule] at hunregister
  split at hunregister
  · cases hunregister
  · rename_i removed' table hfound
    obtain ⟨rfl, rfl⟩ := Prod.mk.inj (Except.ok.inj hunregister)
    exact ⟨table, hfound, rfl⟩

theorem rebuild_eq_ok (hrebuild : scheduler.rebuild = .ok result) :
    ∃ plan, Plan.build scheduler.table.toList scheduler.tags (scheduler.plan.generation + 1) =
        .ok plan ∧
      result = { scheduler with plan := plan, isDirty := false } := by
  rw [rebuild] at hrebuild
  split at hrebuild
  · cases hrebuild
  · rename_i plan hplan
    exact ⟨plan, hplan, (Except.ok.inj hrebuild).symm⟩

/-- A preparation makes a new plan, or has nothing to do. -/
theorem prepare_ok_cases (hprepare : scheduler.prepare = .ok result) :
    scheduler.rebuild = .ok result ∨ (scheduler.isDirty = false ∧ result = scheduler) := by
  rw [prepare] at hprepare
  split at hprepare
  · exact Or.inl hprepare
  · rename_i hclean
    exact Or.inr ⟨Bool.eq_false_iff.mpr hclean, (Except.ok.inj hprepare).symm⟩

theorem isDirty_of_prepare (hprepare : scheduler.prepare = .ok result) :
    result.isDirty = false := by
  rcases prepare_ok_cases hprepare with hrebuild | ⟨hclean, rfl⟩
  · obtain ⟨plan, -, rfl⟩ := rebuild_eq_ok hrebuild
    rfl
  · exact hclean

theorem table_of_prepare (hprepare : scheduler.prepare = .ok result) :
    result.table = scheduler.table := by
  rcases prepare_ok_cases hprepare with hrebuild | ⟨-, rfl⟩
  · obtain ⟨plan, -, rfl⟩ := rebuild_eq_ok hrebuild
    rfl
  · rfl

theorem tags_of_prepare (hprepare : scheduler.prepare = .ok result) :
    result.tags = scheduler.tags := by
  rcases prepare_ok_cases hprepare with hrebuild | ⟨-, rfl⟩
  · obtain ⟨plan, -, rfl⟩ := rebuild_eq_ok hrebuild
    rfl
  · rfl

end Operations

/-- The table is well-formed, and a plan that is not marked is the plan of the table. -/
structure IsFresh (scheduler : Scheduler β) : Prop where
  table : scheduler.table.WellFormed
  plan : scheduler.isDirty = false →
    Plan.build scheduler.table.toList scheduler.tags scheduler.plan.generation =
      .ok scheduler.plan

namespace IsFresh

variable {scheduler result : Scheduler β}

theorem withPool (config : Config) (pool : Pool) :
    (Scheduler.withPool config pool : Scheduler β).IsFresh where
  table := Table.wellFormed_empty
  plan hclean := by cases hclean

theorem register (hfresh : scheduler.IsFresh) {descriptor : Descriptor β} {id : SystemId}
    (hregister : scheduler.register descriptor = .ok (id, result)) : result.IsFresh := by
  obtain ⟨table, hfound, rfl⟩ := register_eq_ok hregister
  exact ⟨hfresh.table.register hfound, fun hclean => by cases hclean⟩

theorem unregister (hfresh : scheduler.IsFresh) {id : SystemId}
    (hunregister : scheduler.unregister id = .ok result) : result.IsFresh := by
  obtain ⟨descriptor, table, hfound, rfl⟩ := unregister_eq_ok hunregister
  exact ⟨hfresh.table.unregister hfound, fun hclean => by cases hclean⟩

theorem unregisterModule (hfresh : scheduler.IsFresh) {owner : ModuleId}
    {removed : List SystemId}
    (hunregister : scheduler.unregisterModule owner = .ok (removed, result)) :
    result.IsFresh := by
  obtain ⟨table, hfound, rfl⟩ := unregisterModule_eq_ok hunregister
  exact ⟨hfresh.table.unregisterModule hfound, fun hclean => by cases hclean⟩

theorem setTagOrder (hfresh : scheduler.IsFresh) (tags : TagOrder) :
    (scheduler.setTagOrder tags).IsFresh := by
  rw [Scheduler.setTagOrder]
  split
  · exact hfresh
  · exact ⟨hfresh.table, fun hclean => by cases hclean⟩

theorem rebuild (hfresh : scheduler.IsFresh) (hrebuild : scheduler.rebuild = .ok result) :
    result.IsFresh := by
  obtain ⟨plan, hplan, rfl⟩ := rebuild_eq_ok hrebuild
  refine ⟨hfresh.table, fun _ => ?_⟩
  rw [Plan.generation_of_build hplan]
  exact hplan

theorem prepare (hfresh : scheduler.IsFresh) (hprepare : scheduler.prepare = .ok result) :
    result.IsFresh := by
  rcases prepare_ok_cases hprepare with hrebuild | ⟨-, rfl⟩
  · exact hfresh.rebuild hrebuild
  · exact hfresh

theorem runTick {σ : Type v} [Behaviour β σ] (hfresh : scheduler.IsFresh)
    (context : TickContext) (halt : Nat → σ → Bool) (shared : σ) :
    (scheduler.runTick context halt shared).2.1.IsFresh := by
  rw [Scheduler.runTick]
  split
  · exact hfresh
  · rename_i prepared hprepare
    have hprepared := hfresh.prepare hprepare
    exact ⟨hprepared.table, hprepared.plan⟩

/-- The plan that a tick runs is the plan of the registered systems. -/
theorem build_of_prepare (hfresh : scheduler.IsFresh)
    (hprepare : scheduler.prepare = .ok result) :
    Plan.build scheduler.table.toList result.tags result.plan.generation = .ok result.plan := by
  rw [← table_of_prepare hprepare]
  exact (hfresh.prepare hprepare).plan (isDirty_of_prepare hprepare)

end IsFresh

theorem Reachable.isFresh {σ : Type v} [Behaviour β σ] {config : Config} {pool : Pool}
    {scheduler : Scheduler β} (hreach : Reachable σ config pool scheduler) :
    scheduler.IsFresh := by
  induction hreach with
  | start => exact IsFresh.withPool config pool
  | register _ _ _ hregister ih => exact ih.register hregister
  | unregister _ _ hunregister ih => exact ih.unregister hunregister
  | unregisterModule _ _ _ hunregister ih => exact ih.unregisterModule hunregister
  | setTagOrder tags _ ih => exact ih.setTagOrder tags
  | prepare _ hprepare ih => exact ih.prepare hprepare
  | rebuild _ hrebuild ih => exact ih.rebuild hrebuild
  | runTick context halt shared _ ih => exact ih.runTick context halt shared

def reportOf? : Except TickError Report → Option Report
  | .ok report => some report
  | .error (.execution failure) => some failure.report
  | .error (.build _) => none

theorem reportOf?_resultOf (report : Report) : reportOf? (resultOf report) = some report := by
  rw [resultOf]
  split <;> rfl

theorem body?_of_build {systems : List (Descriptor β)} {tags : TagOrder}
    {generation : Nat} {plan : Plan β}
    (hbuild : Plan.build systems tags generation = .ok plan) {system : PlannedSystem β}
    (hsystem : system ∈ plan.systems) :
    ∃ descriptor ∈ systems, descriptor.id = system.id ∧
      system.body? = some descriptor.body := by
  obtain ⟨node, hnode⟩ := List.getElem?_of_mem hsystem
  rw [Plan.getElem?_systems_of_build hbuild, Option.map_eq_some_iff] at hnode
  obtain ⟨descriptor, hdescriptor, rfl⟩ := hnode
  exact ⟨descriptor, List.mem_of_getElem? hdescriptor, rfl, rfl⟩

end TickWaves.Scheduler
