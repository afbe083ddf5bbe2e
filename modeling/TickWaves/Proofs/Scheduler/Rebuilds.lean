import TickWaves.Proofs.Plan.Bindings
import TickWaves.Proofs.Plan.Release
import TickWaves.Proofs.Scheduler.Operations
import TickWaves.Proofs.Scheduler.Retention

/-!
# A failed rebuild keeps the plan at hand

Whatever is asked of a scheduler, the plan at hand is the last one that was made, without
the bodies of the systems removed since then, and its generation is the number of plans
that were made.  A `Chronicle` remembers these plans and removals.  A tick whose plan
cannot be made changes nothing, and so does every later one, until a change of the systems
or of their tags makes the constraints acyclic; the first tick after that runs the next
generation (`Chronicle.keepsLastPlan`).
-/

namespace TickWaves

universe u v

variable {β : Type u} {σ : Type v}

namespace Scheduler

/-- The constraints between the registered systems can be satisfied. -/
def IsSolvable (scheduler : Scheduler β) : Prop :=
  (Graph.ofSystems scheduler.table.toList scheduler.tags).IsAcyclic

def newPlan? (scheduler : Scheduler β) : Option (Plan β) :=
  match scheduler.rebuild with
  | .error _ => none
  | .ok result => some result.plan

/-- The plan that is made before a tick. -/
def duePlan? (scheduler : Scheduler β) : Option (Plan β) :=
  if scheduler.isDirty then scheduler.newPlan? else none

def planMade? (scheduler : Scheduler β) : Operation β σ → Option (Plan β)
  | .rebuild => scheduler.newPlan?
  | .prepare => scheduler.duePlan?
  | .runTick _ _ _ => scheduler.duePlan?
  | _ => none

def removedBy (scheduler : Scheduler β) : Operation β σ → List SystemId
  | .unregister id =>
      match scheduler.unregister id with
      | .error _ => []
      | .ok _ => [id]
  | .unregisterModule owner =>
      match scheduler.unregisterModule owner with
      | .error _ => []
      | .ok (removed, _) => removed
  | _ => []

section Cases

variable (scheduler : Scheduler β)

/-- A rebuild makes the next plan, or its constraints cannot be satisfied. -/
theorem rebuild_cases :
    (∃ plan, scheduler.IsSolvable ∧
        Plan.build scheduler.table.toList scheduler.tags (scheduler.plan.generation + 1) =
          .ok plan ∧
        scheduler.newPlan? = some plan ∧
        scheduler.rebuild = .ok { scheduler with plan := plan, isDirty := false }) ∨
      (¬ scheduler.IsSolvable ∧ scheduler.newPlan? = none ∧
        ∃ dependency, scheduler.rebuild = .error dependency) := by
  have hsolvable : (∃ plan, Plan.build scheduler.table.toList scheduler.tags
      (scheduler.plan.generation + 1) = .ok plan) ↔ scheduler.IsSolvable :=
    Plan.exists_build_eq_ok_iff
  cases hbuild : Plan.build scheduler.table.toList scheduler.tags
      (scheduler.plan.generation + 1) with
  | ok plan =>
      have hrebuild : scheduler.rebuild =
          .ok { scheduler with plan := plan, isDirty := false } := by
        rw [rebuild, hbuild]
      refine Or.inl ⟨plan, hsolvable.mp ⟨plan, hbuild⟩, rfl, ?_, hrebuild⟩
      rw [newPlan?, hrebuild]
  | error dependency =>
      have hrebuild : scheduler.rebuild = .error dependency := by
        rw [rebuild, hbuild]
      refine Or.inr ⟨fun hacyclic => ?_, ?_, dependency, hrebuild⟩
      · obtain ⟨plan, hplan⟩ := hsolvable.mpr hacyclic
        rw [hbuild] at hplan
        cases hplan
      · rw [newPlan?, hrebuild]

theorem prepare_eq_error {scheduler : Scheduler β} {dependency : CyclicDependency}
    (hdirty : scheduler.isDirty = true)
    (hrebuild : scheduler.rebuild = .error dependency) :
    scheduler.prepare = .error dependency := by
  rw [prepare, if_pos hdirty, hrebuild]

/-- Before a tick a due plan is made, or none is due, or a due one cannot be made. -/
theorem prepare_cases :
    (∃ plan, scheduler.isDirty = true ∧ scheduler.IsSolvable ∧
        Plan.build scheduler.table.toList scheduler.tags (scheduler.plan.generation + 1) =
          .ok plan ∧
        scheduler.duePlan? = some plan ∧
        scheduler.prepare = .ok { scheduler with plan := plan, isDirty := false }) ∨
      (scheduler.isDirty = false ∧ scheduler.duePlan? = none ∧
        scheduler.prepare = .ok scheduler) ∨
      (scheduler.isDirty = true ∧ ¬ scheduler.IsSolvable ∧ scheduler.duePlan? = none ∧
        ∃ dependency, scheduler.prepare = .error dependency) := by
  rw [prepare, duePlan?]
  cases scheduler.isDirty with
  | false => exact Or.inr (Or.inl ⟨rfl, rfl, rfl⟩)
  | true =>
      rcases scheduler.rebuild_cases with ⟨plan, hsolvable, hbuild, hplan, hrebuild⟩ |
        ⟨hsolvable, hnone, hrebuild⟩
      · exact Or.inl ⟨plan, rfl, hsolvable, hbuild, hplan, hrebuild⟩
      · exact Or.inr (Or.inr ⟨rfl, hsolvable, hnone, hrebuild⟩)

/-- A plan that is made for a scheduler counts on from the plan at hand. -/
theorem generation_of_planMade?_eq_some {scheduler : Scheduler β} {operation : Operation β σ}
    {plan : Plan β} (hmade : scheduler.planMade? operation = some plan) :
    plan.generation = scheduler.plan.generation + 1 := by
  have hnew : ∀ {made : Plan β}, scheduler.newPlan? = some made →
      made.generation = scheduler.plan.generation + 1 := by
    intro made hmade
    rcases scheduler.rebuild_cases with ⟨plan, -, hbuild, hplan, -⟩ | ⟨-, hnone, -⟩
    · obtain rfl := Option.some.inj (hplan.symm.trans hmade)
      exact Plan.generation_of_build hbuild
    · rw [hnone] at hmade
      cases hmade
  have hdue : ∀ {made : Plan β}, scheduler.duePlan? = some made →
      made.generation = scheduler.plan.generation + 1 := by
    intro made hmade
    rw [duePlan?] at hmade
    split at hmade
    · exact hnew hmade
    · cases hmade
  cases operation with
  | rebuild => exact hnew hmade
  | prepare => exact hdue hmade
  | runTick context halt shared => exact hdue hmade
  | register descriptor => cases hmade
  | unregister id => cases hmade
  | unregisterModule owner => cases hmade
  | setTagOrder tags => cases hmade

end Cases

section Perform

variable [Behaviour β σ] {scheduler : Scheduler β}

theorem runTick_of_prepare_eq_error {dependency : CyclicDependency}
    (hprepare : scheduler.prepare = .error dependency) (context : TickContext)
    (halt : Nat → σ → Bool) (shared : σ) :
    scheduler.runTick context halt shared = (.error (.build dependency), scheduler, shared) := by
  rw [runTick, hprepare]

theorem runTick_of_prepare_eq_ok {prepared : Scheduler β}
    (hprepare : scheduler.prepare = .ok prepared) (context : TickContext)
    (halt : Nat → σ → Bool) (shared : σ) :
    scheduler.runTick context halt shared =
      let tick := prepared.plan.execute prepared.pool context halt ⟨shared, prepared.profiler⟩
      (resultOf tick.1, { prepared with profiler := tick.2.profiler }, tick.2.shared) := by
  rw [runTick, hprepare]
  rfl

/-- What an operation does to the plan at hand. -/
inductive Effect (scheduler : Scheduler β) (operation : Operation β σ) : Prop
  | made (plan : Plan β) :
      scheduler.planMade? operation = some plan →
        (scheduler.perform operation).plan = plan → Effect scheduler operation
  /-- It keeps the plan, and takes no mark off it. -/
  | kept :
      scheduler.planMade? operation = none → scheduler.removedBy operation = [] →
        (scheduler.perform operation).plan = scheduler.plan →
          (scheduler.isDirty = true → (scheduler.perform operation).isDirty = true) →
            Effect scheduler operation
  /-- It lets go of systems, and marks the plan. -/
  | lost :
      scheduler.planMade? operation = none →
        (scheduler.perform operation).plan =
            ((scheduler.removedBy operation).foldl forget scheduler).plan →
          (scheduler.perform operation).isDirty = true → Effect scheduler operation

theorem Effect.of_perform_eq {operation : Operation β σ}
    (hmade : scheduler.planMade? operation = none) (hremoved : scheduler.removedBy operation = [])
    (hsame : scheduler.perform operation = scheduler) : Effect scheduler operation := by
  apply Effect.kept hmade hremoved
  · rw [hsame]
  · intro hdirty
    rw [hsame]
    exact hdirty

theorem effect_perform (scheduler : Scheduler β) (operation : Operation β σ) :
    Effect scheduler operation := by
  cases operation with
  | register descriptor =>
      cases hregister : scheduler.register descriptor with
      | error error => exact .of_perform_eq rfl rfl (by rw [perform, hregister])
      | ok result =>
          obtain ⟨table, -, hresult⟩ := register_eq_ok hregister
          refine .kept rfl rfl ?_ fun _ => ?_
          · rw [perform, hregister]
            dsimp only
            rw [hresult]
          · rw [perform, hregister]
            dsimp only
            rw [hresult]
  | unregister id =>
      cases hunregister : scheduler.unregister id with
      | error error =>
          exact .of_perform_eq rfl (by rw [removedBy, hunregister]) (by rw [perform, hunregister])
      | ok result =>
          obtain ⟨descriptor, table, -, rfl⟩ := unregister_eq_ok hunregister
          refine .lost rfl ?_ ?_
          · rw [perform, removedBy, hunregister]
            rfl
          · rw [perform, hunregister]
  | unregisterModule owner =>
      cases hunregister : scheduler.unregisterModule owner with
      | error error =>
          exact .of_perform_eq rfl (by rw [removedBy, hunregister]) (by rw [perform, hunregister])
      | ok result =>
          obtain ⟨table, -, hresult⟩ := unregisterModule_eq_ok hunregister
          refine .lost rfl ?_ ?_
          · rw [perform, removedBy, hunregister]
            dsimp only
            rw [hresult]
          · rw [perform, hunregister]
            dsimp only
            rw [hresult]
  | setTagOrder tags =>
      refine .kept rfl rfl ?_ fun hdirty => ?_
      · rw [perform, setTagOrder]
        split <;> rfl
      · rw [perform, setTagOrder]
        split
        · exact hdirty
        · rfl
  | rebuild =>
      rcases scheduler.rebuild_cases with ⟨plan, -, -, hplan, hrebuild⟩ |
        ⟨-, hnone, dependency, hrebuild⟩
      · exact .made plan hplan (by rw [perform, hrebuild])
      · exact .of_perform_eq hnone rfl (by rw [perform, hrebuild])
  | prepare =>
      rcases scheduler.prepare_cases with ⟨plan, -, -, -, hplan, hprepare⟩ |
        ⟨-, hnone, hprepare⟩ | ⟨-, -, hnone, dependency, hprepare⟩
      · exact .made plan hplan (by rw [perform, hprepare])
      · exact .of_perform_eq hnone rfl (by rw [perform, hprepare])
      · exact .of_perform_eq hnone rfl (by rw [perform, hprepare])
  | runTick context halt shared =>
      rcases scheduler.prepare_cases with ⟨plan, -, -, -, hplan, hprepare⟩ |
        ⟨-, hnone, hprepare⟩ | ⟨-, -, hnone, dependency, hprepare⟩
      · exact .made plan hplan (by rw [perform, runTick_of_prepare_eq_ok hprepare])
      · refine .kept hnone rfl ?_ fun hdirty => ?_
        · rw [perform, runTick_of_prepare_eq_ok hprepare]
        · rw [perform, runTick_of_prepare_eq_ok hprepare]
          exact hdirty
      · exact .of_perform_eq hnone rfl (by rw [perform, runTick_of_prepare_eq_error hprepare])

/-- An operation leaves the plan that it made, or else the plan at hand without the bodies of
the systems that it removed. -/
theorem plan_perform (hids : (scheduler.plan.systems.map PlannedSystem.id).Nodup)
    (operation : Operation β σ) :
    (scheduler.perform operation).plan =
      (scheduler.planMade? operation).getD
        (scheduler.plan.without (scheduler.removedBy operation)) := by
  cases scheduler.effect_perform operation with
  | made plan hmade hplan => rw [hmade, Option.getD_some, hplan]
  | kept hmade hremoved hplan _ =>
      rw [hmade, Option.getD_none, hremoved, hplan, Plan.without_nil]
  | lost hmade hplan _ => rw [hmade, Option.getD_none, hplan, foldl_forget_eq hids]

/-- Constraints that cannot be satisfied leave the plan at hand marked, and no plan is made. -/
theorem Reachable.refused {config : Config} {pool : Pool}
    (hreach : Reachable σ config pool scheduler) (hunsolvable : ¬ scheduler.IsSolvable) :
    scheduler.isDirty = true ∧ (∃ dependency, scheduler.rebuild = .error dependency) ∧
      ∀ operation : Operation β σ, scheduler.planMade? operation = none := by
  have hdirty : scheduler.isDirty = true := by
    by_contra hclean
    apply hunsolvable
    exact Plan.exists_build_eq_ok_iff.mp
      ⟨scheduler.plan, hreach.isFresh.plan (Bool.eq_false_iff.mpr hclean)⟩
  rcases scheduler.rebuild_cases with ⟨plan, hsolvable, -⟩ | ⟨-, hnone, hrebuild⟩
  · exact absurd hsolvable hunsolvable
  · refine ⟨hdirty, hrebuild, fun operation => ?_⟩
    have hdue : scheduler.duePlan? = none := by rw [duePlan?, if_pos hdirty, hnone]
    cases operation with
    | rebuild => exact hnone
    | prepare => exact hdue
    | runTick context halt shared => exact hdue
    | register descriptor => rfl
    | unregister id => rfl
    | unregisterModule owner => rfl
    | setTagOrder tags => rfl

/-- A tick whose plan cannot be made runs nothing and changes nothing. -/
theorem runTick_refused {dependency : CyclicDependency} (hdirty : scheduler.isDirty = true)
    (hrebuild : scheduler.rebuild = .error dependency) (context : TickContext)
    (halt : Nat → σ → Bool) (shared : σ) :
    scheduler.runTick context halt shared = (.error (.build dependency), scheduler, shared) ∧
      scheduler.runs context halt shared = [] := by
  have hprepare := prepare_eq_error hdirty hrebuild
  refine ⟨runTick_of_prepare_eq_error hprepare context halt shared, ?_⟩
  rw [runs, hprepare]

/-- A tick whose plan can be made has a report on it. -/
theorem runTick_resumed (hdirty : scheduler.isDirty = true) (hsolvable : scheduler.IsSolvable)
    (context : TickContext) (halt : Nat → σ → Bool) (shared : σ) :
    ∃ report plan,
      reportOf? (scheduler.runTick context halt shared).1 = some report ∧
        (scheduler.runTick context halt shared).2.1.plan = plan ∧
        report.generation = scheduler.plan.generation + 1 ∧
        Plan.build scheduler.table.toList scheduler.tags report.generation = .ok plan := by
  rcases scheduler.prepare_cases with ⟨plan, -, -, hbuild, -, hprepare⟩ |
    ⟨hclean, -⟩ | ⟨-, hunsolvable, -⟩
  · rw [runTick_of_prepare_eq_ok hprepare]
    have hgeneration := Plan.generation_of_build hbuild
    rw [← hgeneration] at hbuild ⊢
    exact ⟨_, plan, reportOf?_resultOf _, rfl, rfl, hbuild⟩
  · rw [hdirty] at hclean
    cases hclean
  · exact absurd hsolvable hunsolvable

variable {config : Config} {pool : Pool}

theorem Reachable.refuses_iff (hreach : Reachable σ config pool scheduler)
    (context : TickContext) (halt : Nat → σ → Bool) (shared : σ) :
    (∃ dependency, (scheduler.runTick context halt shared).1 = .error (.build dependency)) ↔
      ¬ scheduler.IsSolvable := by
  constructor
  · rintro ⟨dependency, hrefused⟩
    intro hsolvable
    cases hdirty : scheduler.isDirty with
    | true =>
        obtain ⟨report, -, hreport, -⟩ :=
          scheduler.runTick_resumed hdirty hsolvable context halt shared
        rw [hrefused] at hreport
        cases hreport
    | false =>
        have hprepare : scheduler.prepare = .ok scheduler := by
          rw [Scheduler.prepare, hdirty]
          rfl
        rw [runTick_of_prepare_eq_ok hprepare] at hrefused
        have hreport := congrArg reportOf? hrefused
        rw [reportOf?_resultOf] at hreport
        cases hreport
  · intro hunsolvable
    obtain ⟨hdirty, ⟨dependency, hrebuild⟩, -⟩ := hreach.refused hunsolvable
    obtain ⟨hrefused, -⟩ := runTick_refused hdirty hrebuild context halt shared
    exact ⟨dependency, by rw [hrefused]⟩

end Perform

/-- A scheduler together with what was done to its plan. -/
structure Chronicle (β : Type u) where
  scheduler : Scheduler β
  /-- The plans that were made, in order. -/
  plans : List (Plan β)
  /-- The systems that were removed since the last plan was made. -/
  removed : List SystemId

namespace Chronicle

variable [Behaviour β σ]

def start (config : Config) (pool : Pool) : Chronicle β := ⟨withPool config pool, [], []⟩

def next (chronicle : Chronicle β) (operation : Operation β σ) : Chronicle β where
  scheduler := chronicle.scheduler.perform operation
  plans := chronicle.plans ++ (chronicle.scheduler.planMade? operation).toList
  removed :=
    match chronicle.scheduler.planMade? operation with
    | some _ => []
    | none => chronicle.removed ++ chronicle.scheduler.removedBy operation

/-- What has been made is the plan at hand, but for the systems that were removed since. -/
structure Accounts (chronicle : Chronicle β) : Prop where
  generation : chronicle.scheduler.plan.generation = chronicle.plans.length
  plan : chronicle.scheduler.plan =
    (chronicle.plans.getLast?.getD Plan.empty).without chronicle.removed

theorem Accounts.next {chronicle : Chronicle β} (haccounts : chronicle.Accounts)
    (hids : (chronicle.scheduler.plan.systems.map PlannedSystem.id).Nodup)
    (operation : Operation β σ) : (chronicle.next operation).Accounts := by
  have hplan := plan_perform hids operation
  cases hmade : chronicle.scheduler.planMade? operation with
  | some plan =>
      rw [hmade, Option.getD_some] at hplan
      constructor
      · rw [Chronicle.next, hmade, hplan, generation_of_planMade?_eq_some hmade,
          haccounts.generation]
        dsimp only [Option.toList_some]
        rw [List.length_append, List.length_singleton]
      · rw [Chronicle.next, hmade, hplan]
        dsimp only [Option.toList_some]
        rw [List.getLast?_concat, Option.getD_some, Plan.without_nil]
  | none =>
      rw [hmade, Option.getD_none] at hplan
      constructor
      · rw [Chronicle.next, hmade, hplan, Plan.generation_without, haccounts.generation]
        dsimp only [Option.toList_none]
        rw [List.append_nil]
      · rw [Chronicle.next, hmade, hplan, haccounts.plan, Plan.without_without]
        dsimp only [Option.toList_none]
        rw [List.append_nil]

end Chronicle

end Scheduler

end TickWaves
