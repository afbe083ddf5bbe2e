import TickWaves.Proofs.Plan.Release
import TickWaves.Scheduler.Basic

/-!
# What a scheduler lets go of

For a system that has gone, a scheduler drops the body in its plan and the samples in its
profiler, and nothing else.  Doing so for one system after the other leaves the scheduler
without the bodies and samples of all of them (`Scheduler.foldl_forget_eq`).
-/

namespace TickWaves

universe u

variable {β : Type u}

namespace Profiler

def without (profiler : Profiler) (removed : List SystemId) : Profiler :=
  { profiler with windows := profiler.windows.filter fun entry => entry.1 ∉ removed }

variable (profiler : Profiler)

@[simp]
theorem without_nil : profiler.without [] = profiler := by
  simp [without]

theorem without_without (first second : List SystemId) :
    (profiler.without first).without second = profiler.without (first ++ second) := by
  simp only [without, List.filter_filter, List.mem_append, not_or, Bool.decide_and, Bool.and_comm]

theorem without_eq_of_perm {removed removed' : List SystemId} (hperm : removed.Perm removed') :
    profiler.without removed = profiler.without removed' := by
  simp only [without, hperm.mem_iff]

theorem forget_eq_without (id : SystemId) : profiler.forget id = profiler.without [id] := by
  have hkept : (fun entry : SystemId × SampleWindow => entry.1 != id) =
      fun entry => decide (entry.1 ∉ [id]) := by
    funext entry
    rw [Bool.eq_iff_iff, bne_iff_ne, decide_eq_true_eq, List.mem_singleton]
  rw [forget, without, hkept]

end Profiler

namespace Scheduler

variable {scheduler : Scheduler β}
variable (hids : (scheduler.plan.systems.map PlannedSystem.id).Nodup)
include hids

theorem forget_eq (id : SystemId) : scheduler.forget id =
    { scheduler with
      plan := scheduler.plan.without [id]
      profiler := scheduler.profiler.without [id] } := by
  rw [forget, Plan.release_eq_without hids, Profiler.forget_eq_without]

theorem foldl_forget_eq (removed : List SystemId) : removed.foldl forget scheduler =
    { scheduler with
      plan := scheduler.plan.without removed
      profiler := scheduler.profiler.without removed } := by
  induction removed generalizing scheduler with
  | nil => rw [Plan.without_nil, Profiler.without_nil, List.foldl_nil]
  | cons first rest ih =>
      have hids' : ((scheduler.forget first).plan.systems.map PlannedSystem.id).Nodup := by
        rw [forget_eq hids, Plan.map_id_systems_without]
        exact hids
      rw [List.foldl_cons, ih hids', forget_eq hids, Plan.without_without,
        Profiler.without_without, List.singleton_append]

end Scheduler

end TickWaves
