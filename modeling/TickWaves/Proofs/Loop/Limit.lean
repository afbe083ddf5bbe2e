import TickWaves.Proofs.Loop.Course

/-!
# A loop with a limit

A loop with a limit makes exactly so many ticks, unless the token cuts one of them short or
the plan cannot be made.  The ticks count on from the tick before the run and all get the
same simulated time.  Only the first tick of a run can fail for want of a plan, and then it
runs no body; a run makes at most one new plan (`Moment.runsOnTime_of_limited`).
-/

namespace TickWaves

universe u v

variable {β : Type u} {σ : Type v}

namespace Moment

variable [Behaviour β σ] {isCancelled : σ → Bool} {moment : Moment β σ}

theorem result_of_refused {dependency : CyclicDependency}
    (hrefused : moment.loop.scheduler.prepare = .error dependency) :
    moment.result isCancelled = .error (.build dependency) ∧
      moment.next isCancelled =
        ⟨{ moment.loop with tick := moment.loop.tick + 1 }, moment.shared⟩ := by
  rcases moment.result_cases isCancelled with
    ⟨other, hother, hresult, hnext⟩ | ⟨prepared, -, -, hprepare, -⟩
  · obtain rfl := Except.error.inj (hrefused.symm.trans hother)
    exact ⟨hresult, hnext⟩
  · cases hrefused.symm.trans hprepare

/-- A loop whose plan cannot be made stays as it is, but for the count of its ticks. -/
theorem after_of_refused {dependency : CyclicDependency}
    (hrefused : moment.loop.scheduler.prepare = .error dependency) (count : Nat) :
    moment.after isCancelled count =
      ⟨{ moment.loop with tick := moment.loop.tick + count }, moment.shared⟩ := by
  induction count with
  | zero => rfl
  | succ count ih =>
      rw [after_succ, ih]
      have hstill : (⟨{ moment.loop with tick := moment.loop.tick + count }, moment.shared⟩ :
          Moment β σ).loop.scheduler.prepare = .error dependency := hrefused
      exact (result_of_refused hstill).2

/-- In all its ticks together, a loop makes at most one new plan. -/
theorem generation_after_le (isCancelled : σ → Bool) (count : Nat) (moment : Moment β σ) :
    (moment.after isCancelled count).loop.scheduler.plan.generation ≤
      moment.loop.scheduler.plan.generation + 1 := by
  cases count with
  | zero => exact Nat.le_succ _
  | succ count =>
      rcases moment.loop.scheduler.prepare_cases with
        ⟨plan, -, -, hbuild, -, hprepare⟩ | ⟨-, -, hprepare⟩ | ⟨-, -, -, dependency, hrefused⟩
      · rw [(prepare_after hprepare count).2]
        exact Nat.le_of_eq (Plan.generation_of_build hbuild)
      · rw [(prepare_after hprepare count).2]
        exact Nat.le_succ _
      · rw [after_of_refused hrefused]
        exact Nat.le_succ _

/-- A run leaves the loop where its ticks lead. -/
theorem exists_runFor_eq_after (isCancelled : σ → Bool) (stats : LoopStats)
    (moment : Moment β σ) (turns : Nat) :
    ∃ count ≤ turns,
      (TickLoop.runFor isCancelled turns moment.loop stats moment.shared).2 =
        ((moment.after isCancelled count).loop, (moment.after isCancelled count).shared) := by
  rcases moment.runFor_cases isCancelled stats turns with hgoes | ⟨count, hlt, hgoes, hsame, -⟩
  · exact ⟨turns, Nat.le_refl turns, by rw [hgoes.run]⟩
  · exact ⟨count + 1, hlt, by rw [hsame, hgoes.runFor_succ]⟩

variable {prepared : Scheduler β} (hprepare : moment.loop.scheduler.prepare = .ok prepared)
include hprepare

/-- As long as the token is not seen and the limit is not reached, a loop goes on. -/
theorem goesOn_of_forall_not_seesToken {stats : LoopStats} {count : Nat}
    (hclear : ∀ index < count, ¬ (moment.after isCancelled index).SeesToken isCancelled)
    (hlimit : stats.ticks + count < moment.loop.config.maxTicks) :
    moment.GoesOn isCancelled stats count := by
  induction count with
  | zero => exact .zero isCancelled stats moment
  | succ count ih =>
      have hgoes := ih (fun index hindex => hclear index (Nat.lt_succ_of_lt hindex)) (by omega)
      obtain ⟨report, hresult, -, hcut⟩ := exists_report_after isCancelled hprepare count
      apply hgoes.succ hresult
      · exact Bool.eq_false_iff.mpr (mt hcut.mp (hclear count (Nat.lt_succ_self count)))
      · omega

theorem map_tick_reports (count : Nat) :
    (moment.reports isCancelled count).map Report.tick =
      (List.range count).map fun index => moment.loop.tick + index + 1 := by
  induction count with
  | zero => rfl
  | succ count ih =>
      obtain ⟨report, hresult, htick, -⟩ := exists_report_after isCancelled hprepare count
      rw [reports_succ, hresult, Scheduler.reportOf?_resultOf, List.map_append, ih,
        List.range_succ, List.map_append]
      simp [htick]

end Moment

namespace TickLoop

variable [Behaviour β σ]

/-- What the ticks of a run are told, one after the other. -/
def contextsFor (isCancelled : σ → Bool) :
    (turns : Nat) → TickLoop β → LoopStats → σ → List TickContext
  | 0, _, _, _ => []
  | turns + 1, loop, stats, shared =>
      let turned := loop.turn stats isCancelled shared
      ⟨loop.tick + 1, loop.budget.toFloat⟩ ::
        match turned.state with
        | .running stats => contextsFor isCancelled turns turned.loop stats turned.shared
        | _ => []

theorem contextsFor_succ_of_running {isCancelled : σ → Bool} {loop : TickLoop β}
    {stats next : LoopStats} {shared : σ} (turns : Nat)
    (hstate : (loop.turn stats isCancelled shared).state = .running next) :
    contextsFor isCancelled (turns + 1) loop stats shared =
      ⟨loop.tick + 1, loop.budget.toFloat⟩ ::
        contextsFor isCancelled turns (loop.turn stats isCancelled shared).loop next
          (loop.turn stats isCancelled shared).shared := by
  rw [contextsFor, hstate]

theorem contextsFor_succ_of_ended {isCancelled : σ → Bool} {loop : TickLoop β}
    {stats : LoopStats} {shared : σ} (turns : Nat)
    (hended : (loop.turn stats isCancelled shared).state.result?.isSome = true) :
    contextsFor isCancelled (turns + 1) loop stats shared =
      [⟨loop.tick + 1, loop.budget.toFloat⟩] := by
  rw [contextsFor]
  cases hstate : (loop.turn stats isCancelled shared).state with
  | running next =>
      rw [hstate] at hended
      cases hended
  | complete last => rfl
  | cancelled last => rfl
  | broken dependency => rfl

/-- The contexts of a run are those of all ticks up to the last one, in order. -/
theorem contextsFor_eq {isCancelled : σ → Bool} {turns count : Nat} {loop : TickLoop β}
    {stats : LoopStats} {shared : σ}
    (hcount : (runFor isCancelled turns loop stats shared).2.1.tick = loop.tick + count) :
    contextsFor isCancelled turns loop stats shared =
      (List.range count).map fun index => ⟨loop.tick + index + 1, loop.budget.toFloat⟩ := by
  induction turns generalizing loop stats shared count with
  | zero =>
      have hzero : loop.tick = loop.tick + count := hcount
      obtain rfl : count = 0 := by omega
      rfl
  | succ turns ih =>
      -- A turn makes one tick, whatever becomes of the loop.
      have hturn : (loop.turn stats isCancelled shared).loop.tick = loop.tick + 1 := rfl
      rcases (loop.turn stats isCancelled shared).state.running_or_ended with
        ⟨next, hnext⟩ | hended
      · rw [runFor_succ_of_running turns hnext] at hcount
        obtain ⟨rest, -, hafter⟩ := Moment.exists_runFor_eq_after isCancelled next
          ⟨(loop.turn stats isCancelled shared).loop,
            (loop.turn stats isCancelled shared).shared⟩ turns
        have hrest : (runFor isCancelled turns (loop.turn stats isCancelled shared).loop next
            (loop.turn stats isCancelled shared).shared).2.1.tick = loop.tick + 1 + rest := by
          rw [hafter, Moment.tick_after, hturn]
        obtain rfl : count = rest + 1 := by omega
        rw [contextsFor_succ_of_running turns hnext, ih hrest, List.range_succ_eq_map,
          List.map_cons, List.map_map]
        refine congrArg _ (List.map_congr_left fun index _ => ?_)
        rw [Function.comp_apply, hturn, Nat.succ_eq_add_one, Nat.add_assoc loop.tick 1 index,
          Nat.add_comm 1 index]
        rfl
      · rw [runFor_succ_of_ended turns hended, hturn] at hcount
        obtain rfl : count = 1 := by omega
        rw [contextsFor_succ_of_ended turns hended]
        rfl

end TickLoop

namespace Moment

variable [Behaviour β σ]

/-- A run makes exactly so many ticks, and that is its state then. -/
structure EndsAfter (isCancelled : σ → Bool) (moment : Moment β σ) (count : Nat)
    (state : LoopState) : Prop where
  ended : state.result?.isSome = true
  running : ∀ turns < count,
    (TickLoop.runFor isCancelled turns moment.loop .zero moment.shared).1.result? = none
  run : ∀ more, TickLoop.runFor isCancelled (count + more) moment.loop .zero moment.shared =
    (state, (moment.after isCancelled count).loop, (moment.after isCancelled count).shared)
  tick : (moment.after isCancelled count).loop.tick = moment.loop.tick + count
  contexts : ∀ more,
    TickLoop.contextsFor isCancelled (count + more) moment.loop .zero moment.shared =
      (List.range count).map fun index =>
        ⟨moment.loop.tick + index + 1, moment.loop.budget.toFloat⟩

/-- What the runs of a loop with a limit come to. -/
structure RunsOnTime (isCancelled : σ → Bool) (moment : Moment β σ) : Prop where
  /-- If the token cuts none of its ticks short, a run makes as many as the limit says. -/
  completes : ∀ {prepared}, moment.loop.scheduler.prepare = .ok prepared →
    (∀ index < moment.loop.config.maxTicks,
      ¬ (moment.after isCancelled index).SeesToken isCancelled) →
    moment.EndsAfter isCancelled moment.loop.config.maxTicks
        (.complete ⟨moment.loop.config.maxTicks,
          (moment.reports isCancelled moment.loop.config.maxTicks).countP
            Report.hasFailures⟩) ∧
      (moment.reports isCancelled moment.loop.config.maxTicks).map Report.tick =
        (List.range moment.loop.config.maxTicks).map fun index => moment.loop.tick + index + 1
  /-- The first tick that the token cuts short is the last one, and it is not counted. -/
  cancels : ∀ {prepared}, moment.loop.scheduler.prepare = .ok prepared →
    ∀ count < moment.loop.config.maxTicks,
      (∀ index < count, ¬ (moment.after isCancelled index).SeesToken isCancelled) →
      (moment.after isCancelled count).SeesToken isCancelled →
      (moment.reports isCancelled (count + 1)).map Report.isCancelled =
          List.replicate count false ++ [true] ∧
        ∃ failedTicks, moment.EndsAfter isCancelled (count + 1) (.cancelled ⟨count, failedTicks⟩)
  /-- Only in its first tick a run can lack a plan. -/
  breaks : ∀ turns dependency,
    (TickLoop.runFor isCancelled (turns + 1) moment.loop .zero moment.shared).1 =
        .broken dependency ↔
      moment.loop.scheduler.prepare = .error dependency
  /-- Then that tick runs no body, and nothing but the count of the ticks changes. -/
  refused : ∀ {dependency}, moment.loop.scheduler.prepare = .error dependency →
    moment.EndsAfter isCancelled 1 (.broken dependency) ∧
      moment.after isCancelled 1 =
        ⟨{ moment.loop with tick := moment.loop.tick + 1 }, moment.shared⟩ ∧
      moment.loop.scheduler.runs moment.context (fun _ shared => isCancelled shared)
        moment.shared = []
  /-- At most one new plan is made in a run. -/
  generation : ∀ turns,
    (TickLoop.runFor isCancelled turns moment.loop .zero
        moment.shared).2.1.scheduler.plan.generation ≤
      moment.loop.scheduler.plan.generation + 1

variable {isCancelled : σ → Bool} {moment : Moment β σ} {count : Nat}

theorem GoesOn.endsAfter (hgoes : moment.GoesOn isCancelled .zero count) {state : LoopState}
    (hstate : (TickLoop.runFor isCancelled (count + 1) moment.loop .zero moment.shared).1 = state)
    (hended : state.result?.isSome = true) :
    moment.EndsAfter isCancelled (count + 1) state := by
  have hrun : TickLoop.runFor isCancelled (count + 1) moment.loop .zero moment.shared =
      (state, (moment.after isCancelled (count + 1)).loop,
        (moment.after isCancelled (count + 1)).shared) := by
    rw [hgoes.runFor_succ] at hstate ⊢
    rw [← hstate]
  have hstays := TickLoop.runFor_add_of_ended hrun hended
  refine ⟨hended, fun turns hturns => ?_, hstays, tick_after isCancelled (count + 1) moment,
    fun more => TickLoop.contextsFor_eq ?_⟩
  · -- A run that ended before would not go on for all these ticks.
    rcases moment.runFor_cases isCancelled .zero turns with
      hbefore | ⟨earlier, hlt, -, -, hearly⟩
    · rw [hbefore.run]
      rfl
    · have hstopped := TickLoop.runFor_add_of_ended rfl hearly (count - (earlier + 1))
      rw [Nat.add_sub_of_le (by omega : earlier + 1 ≤ count), hgoes.run] at hstopped
      rw [← congrArg Prod.fst hstopped] at hearly
      cases hearly
  · rw [hstays more, tick_after]

theorem GoesOn.map_isCancelled_reports (hgoes : moment.GoesOn isCancelled .zero count) :
    (moment.reports isCancelled count).map Report.isCancelled = List.replicate count false := by
  refine List.eq_replicate_iff.mpr ⟨by rw [List.length_map, hgoes.length], fun cut hcut => ?_⟩
  obtain ⟨report, hreport, rfl⟩ := List.mem_map.mp hcut
  simpa [Report.isWhole] using hgoes.whole report hreport

theorem GoesOn.tallied_succ (hgoes : moment.GoesOn isCancelled .zero count) {report : Report}
    (hresult : (moment.after isCancelled count).result isCancelled =
      Scheduler.resultOf report) :
    LoopStats.zero.tallied (moment.reports isCancelled (count + 1)) =
      ⟨if report.isCancelled then count else count + 1,
        (moment.reports isCancelled (count + 1)).countP Report.hasFailures⟩ := by
  have hticks : (moment.reports isCancelled (count + 1)).countP Report.isWhole =
      if report.isCancelled then count else count + 1 := by
    rw [(hgoes.runFor_succ_of_report hresult).1, List.countP_append,
      List.countP_eq_length.mpr hgoes.whole, hgoes.length]
    cases hcut : report.isCancelled <;> simp [Report.isWhole, hcut]
  rw [LoopStats.tallied, hticks]
  exact congrArg₂ LoopStats.mk (Nat.zero_add _) (Nat.zero_add _)

theorem runFor_succ_eq_broken_iff (turns : Nat) (dependency : CyclicDependency) :
    (TickLoop.runFor isCancelled (turns + 1) moment.loop .zero moment.shared).1 =
        .broken dependency ↔
      moment.loop.scheduler.prepare = .error dependency := by
  cases hprepare : moment.loop.scheduler.prepare with
  | error refusal =>
      have hfirst := (GoesOn.zero isCancelled .zero moment).runFor_succ
      rw [after_zero, (result_of_refused hprepare).1] at hfirst
      rw [Nat.add_comm turns 1, TickLoop.runFor_add_of_ended hfirst rfl turns]
      constructor
      · rintro ⟨⟩
        rfl
      · rintro ⟨⟩
        rfl
  | ok prepared =>
      -- All ticks have reports, and none of these is a refusal.
      refine iff_of_false (fun hbroken => ?_) (by rintro ⟨⟩)
      rcases moment.runFor_cases isCancelled .zero (turns + 1) with
        hgoes | ⟨count, -, hgoes, hsame, -⟩
      · rw [hgoes.run] at hbroken
        cases hbroken
      · obtain ⟨report, hresult, -⟩ := exists_report_after isCancelled hprepare count
        rw [hsame, (hgoes.runFor_succ_of_report hresult).2] at hbroken
        dsimp only at hbroken
        split_ifs at hbroken

/-- The runs of a loop with a limit come to what the limit says, whatever its scheduler and
its bodies do. -/
theorem runsOnTime_of_limited (hlimit : 0 < moment.loop.config.maxTicks) :
    moment.RunsOnTime isCancelled := by
  constructor
  case completes =>
    intro prepared hprepare hclear
    obtain ⟨count, hcount⟩ := Nat.exists_eq_add_of_lt hlimit
    rw [Nat.zero_add] at hcount
    rw [hcount] at hclear ⊢
    refine ⟨?_, map_tick_reports hprepare (count + 1)⟩
    have hgoes : moment.GoesOn isCancelled .zero count :=
      goesOn_of_forall_not_seesToken hprepare
        (fun index hindex => hclear index (Nat.lt_succ_of_lt hindex))
        (by rw [LoopStats.zero, Nat.zero_add, hcount]; exact Nat.lt_succ_self count)
    obtain ⟨report, hresult, -, hcut⟩ := exists_report_after isCancelled hprepare count
    have hwhole : report.isCancelled = false :=
      Bool.eq_false_iff.mpr (mt hcut.mp (hclear count (Nat.lt_succ_self count)))
    have hreached : moment.loop.config.maxTicks ≤ LoopStats.zero.ticks + (count + 1) :=
      Nat.le_of_eq (hcount.trans (Nat.zero_add _).symm)
    refine hgoes.endsAfter ?_ rfl
    rw [(hgoes.runFor_succ_of_report hresult).2, hgoes.tallied_succ hresult, hwhole,
      if_neg Bool.false_ne_true, if_pos ⟨hlimit, hreached⟩]
    rfl
  case cancels =>
    intro prepared hprepare count hcount hclear hsees
    have hgoes : moment.GoesOn isCancelled .zero count :=
      goesOn_of_forall_not_seesToken hprepare hclear
        (by rw [LoopStats.zero, Nat.zero_add]; exact hcount)
    obtain ⟨report, hresult, -, hcut⟩ := exists_report_after isCancelled hprepare count
    refine ⟨?_, (moment.reports isCancelled (count + 1)).countP Report.hasFailures,
      hgoes.endsAfter ?_ rfl⟩
    · rw [(hgoes.runFor_succ_of_report hresult).1, List.map_append, hgoes.map_isCancelled_reports,
        List.map_singleton, hcut.mpr hsees]
    · rw [(hgoes.runFor_succ_of_report hresult).2, hgoes.tallied_succ hresult, hcut.mpr hsees]
      rfl
  case breaks => exact runFor_succ_eq_broken_iff
  case refused =>
    intro dependency hrefused
    refine ⟨(GoesOn.zero isCancelled .zero moment).endsAfter
      ((runFor_succ_eq_broken_iff 0 dependency).mpr hrefused) rfl,
      after_of_refused hrefused 1, ?_⟩
    rw [Scheduler.runs, hrefused]
  case generation =>
    intro turns
    obtain ⟨count, -, hafter⟩ := exists_runFor_eq_after isCancelled .zero moment turns
    rw [hafter]
    exact generation_after_le isCancelled count moment

/-- A body that fails in odd ticks and that sets the token in one of its ticks; the token is
all that the systems share. -/
structure Flaky where
  cancelsAt : Nat

instance : Behaviour Flaky Bool where
  run flaky context _ token :=
    ⟨if context.tick % 2 = 0 then .done else .failed ["odd tick"],
      token || context.tick == flaky.cancelsAt, .zero⟩

def flaky (cancelsAt : Nat) : Moment Flaky Bool where
  loop := ⟨0, ⟨1000.0, 4⟩, ⟨1000000⟩,
    (Scheduler.withPool (Config.ofCores 1) .inline).performAll
      ([.register ((Descriptor.ofBody "source" ⟨cancelsAt⟩).writing ⟨7⟩),
        .register ((Descriptor.ofBody "sink" ⟨0⟩).reading ⟨7⟩)] :
          List (Scheduler.Operation Flaky Bool))⟩
  shared := false

theorem runsOnTime_of_limited_flaky :
    0 < (flaky 2).loop.config.maxTicks ∧ (flaky 2).loop.scheduler.prepare.isOk = true ∧
      (TickLoop.runFor id 4 (flaky 0).loop .zero false).1 = .complete ⟨4, 2⟩ ∧
      (TickLoop.runFor id 4 (flaky 2).loop .zero false).1 = .cancelled ⟨1, 1⟩ ∧
      (flaky 0).RunsOnTime id ∧ (flaky 2).RunsOnTime id :=
  ⟨by decide, by decide +kernel, by decide +kernel, by decide +kernel,
    runsOnTime_of_limited (by decide), runsOnTime_of_limited (by decide)⟩

end Moment

end TickWaves
