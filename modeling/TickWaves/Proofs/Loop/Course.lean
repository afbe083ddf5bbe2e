import TickWaves.Loop.Basic
import TickWaves.Proofs.Scheduler.Rebuilds

/-!
# The course of a loop

A loop runs one tick after the other.  `Moment.after` follows its ticks without asking
whether one of them ends the loop, and `Moment.reports` collects what is reported on them.
A run of the loop keeps to this course for as long as it lasts, and its counts are those of
the reports (`runFor_cases`): every report without a cancellation counts as a tick, and
every report with a failure as a failed one.

A loop whose plan could be made once has no use for another one, so its later ticks all have
reports (`exists_prepare_after`).
-/

namespace TickWaves

universe u v

variable {β : Type u} {σ : Type v}

namespace Report

def hasFailures (report : Report) : Bool := !report.failed.isEmpty

def isWhole (report : Report) : Bool := !report.isCancelled

theorem isEmpty_failures (report : Report) : report.failures.isEmpty = !report.hasFailures := by
  have hnone : report.failures = [] ↔ report.failed = [] := by
    rw [failures, failed, List.filterMap_eq_nil_iff, List.filter_eq_nil_iff]
    simp only [failure?, Option.map_eq_none_iff, Bool.not_eq_true, Option.isSome_eq_false_iff,
      Option.isNone_iff_eq_none]
  rw [hasFailures, Bool.not_not, Bool.eq_iff_iff, List.isEmpty_iff, List.isEmpty_iff, hnone]

end Report

/-- The tick stops before its end exactly if a cancellation is seen when some wave is due. -/
theorem Plan.firstHalt_lt_iff [Behaviour β σ] {plan : Plan β} {pool : Pool}
    {context : TickContext} {halt : Nat → σ → Bool} {workspace : Workspace σ} :
    plan.firstHalt pool context halt workspace < plan.waves.length ↔
      ∃ index < plan.waves.length,
        halt index (plan.upTo pool context workspace index).2.shared = true := by
  constructor
  · exact fun hlt => ⟨_, hlt, halt_firstHalt hlt⟩
  · rintro ⟨index, hindex, hhalt⟩
    by_contra hge
    have hclear := halt_eq_false_of_lt_firstHalt (Nat.lt_of_lt_of_le hindex (Nat.not_lt.mp hge))
    exact Bool.false_ne_true (hclear.symm.trans hhalt)

theorem Scheduler.resultOf_eq (report : Report) :
    resultOf report =
      if report.hasFailures then .error (.execution (ExecutionFailure.ofReport report))
      else .ok report := by
  have hempty : (ExecutionFailure.ofReport report).failures.isEmpty = !report.hasFailures :=
    report.isEmpty_failures
  rw [resultOf, hempty]
  cases report.hasFailures <;> rfl

namespace LoopStats

def tallied (stats : LoopStats) (reports : List Report) : LoopStats where
  ticks := stats.ticks + reports.countP Report.isWhole
  failedTicks := stats.failedTicks + reports.countP Report.hasFailures

theorem tallied_append (stats : LoopStats) (earlier later : List Report) :
    stats.tallied (earlier ++ later) = (stats.tallied earlier).tallied later := by
  simp only [tallied, List.countP_append, Nat.add_assoc]

end LoopStats

theorem LoopState.running_or_ended (state : LoopState) :
    (∃ stats, state = running stats) ∨ state.result?.isSome = true := by
  cases state with
  | running stats => exact Or.inl ⟨stats, rfl⟩
  | complete stats => exact Or.inr rfl
  | cancelled stats => exact Or.inr rfl
  | broken dependency => exact Or.inr rfl

namespace TickLoop

/-- What a report means for the loop. -/
theorem judged_resultOf (config : LoopConfig) (stats : LoopStats) (report : Report) :
    judged config stats (Scheduler.resultOf report) =
      if report.isCancelled then .cancelled (stats.tallied [report])
      else if 0 < config.maxTicks ∧ config.maxTicks ≤ stats.ticks + 1 then
        .complete (stats.tallied [report])
      else .running (stats.tallied [report]) := by
  rw [Scheduler.resultOf_eq]
  cases hfailed : report.hasFailures <;> cases hcut : report.isCancelled <;>
    simp [judged, counted, ExecutionFailure.ofReport, LoopStats.tallied, Report.isWhole,
      hfailed, hcut]

section Runs

variable [Behaviour β σ] {isCancelled : σ → Bool}

section Turn

variable {loop : TickLoop β} {stats : LoopStats} {shared : σ}

theorem runFor_succ_of_running {next : LoopStats} (turns : Nat)
    (hstate : (loop.turn stats isCancelled shared).state = .running next) :
    runFor isCancelled (turns + 1) loop stats shared =
      runFor isCancelled turns (loop.turn stats isCancelled shared).loop next
        (loop.turn stats isCancelled shared).shared := by
  rw [runFor, hstate]

theorem runFor_succ_of_ended (turns : Nat)
    (hended : (loop.turn stats isCancelled shared).state.result?.isSome = true) :
    runFor isCancelled (turns + 1) loop stats shared =
      ((loop.turn stats isCancelled shared).state, (loop.turn stats isCancelled shared).loop,
        (loop.turn stats isCancelled shared).shared) := by
  rw [runFor]
  cases hstate : (loop.turn stats isCancelled shared).state with
  | running next =>
      rw [hstate] at hended
      cases hended
  | complete last => rfl
  | cancelled last => rfl
  | broken dependency => rfl

end Turn

/-- Turning a loop so many times and then some more. -/
theorem runFor_add (earlier later : Nat) (loop : TickLoop β) (stats : LoopStats) (shared : σ)
    {loop' : TickLoop β} {stats' : LoopStats} {shared' : σ}
    (hrun : runFor isCancelled earlier loop stats shared = (.running stats', loop', shared')) :
    runFor isCancelled (earlier + later) loop stats shared =
      runFor isCancelled later loop' stats' shared' := by
  induction earlier generalizing loop stats shared with
  | zero =>
      obtain ⟨hstats, hrest⟩ := Prod.mk.inj hrun
      obtain ⟨rfl, rfl⟩ := Prod.mk.inj hrest
      cases hstats
      rw [Nat.zero_add]
  | succ earlier ih =>
      rcases (loop.turn stats isCancelled shared).state.running_or_ended with
        ⟨next, hnext⟩ | hended
      · rw [runFor_succ_of_running earlier hnext] at hrun
        rw [Nat.add_right_comm, runFor_succ_of_running _ hnext]
        exact ih _ _ _ hrun
      · rw [runFor_succ_of_ended earlier hended] at hrun
        rw [(Prod.mk.inj hrun).1] at hended
        cases hended

/-- A run that has ended stays as it is, however often the loop could still be turned. -/
theorem runFor_add_of_ended {turns : Nat} {loop last : TickLoop β} {stats : LoopStats}
    {shared shared' : σ} {state : LoopState}
    (hrun : runFor isCancelled turns loop stats shared = (state, last, shared'))
    (hended : state.result?.isSome = true) (more : Nat) :
    runFor isCancelled (turns + more) loop stats shared = (state, last, shared') := by
  induction turns generalizing loop stats shared with
  | zero =>
      obtain ⟨rfl, -⟩ := Prod.mk.inj hrun
      cases hended
  | succ turns ih =>
      rw [Nat.add_right_comm]
      rcases (loop.turn stats isCancelled shared).state.running_or_ended with
        ⟨next, hnext⟩ | hstops
      · rw [runFor_succ_of_running turns hnext] at hrun
        rw [runFor_succ_of_running _ hnext]
        exact ih hrun
      · rw [runFor_succ_of_ended turns hstops] at hrun
        rw [runFor_succ_of_ended _ hstops]
        exact hrun

end Runs

end TickLoop

/-- A loop between two ticks. -/
structure Moment (β : Type u) (σ : Type v) where
  loop : TickLoop β
  /-- What the systems share. -/
  shared : σ

namespace Moment

def context (moment : Moment β σ) : TickContext :=
  ⟨moment.loop.tick + 1, moment.loop.budget.toFloat⟩

variable [Behaviour β σ]

def result (isCancelled : σ → Bool) (moment : Moment β σ) : Except TickError Report :=
  (moment.loop.runTick moment.loop.budget.toFloat isCancelled moment.shared).1

def next (isCancelled : σ → Bool) (moment : Moment β σ) : Moment β σ :=
  let (_, loop, shared) :=
    moment.loop.runTick moment.loop.budget.toFloat isCancelled moment.shared
  ⟨loop, shared⟩

/-- The loop after so many more ticks. -/
def after (isCancelled : σ → Bool) (count : Nat) (moment : Moment β σ) : Moment β σ :=
  (next isCancelled)^[count] moment

/-- The reports on so many more ticks. -/
def reports (isCancelled : σ → Bool) (count : Nat) (moment : Moment β σ) : List Report :=
  (List.range count).filterMap fun index =>
    Scheduler.reportOf? ((moment.after isCancelled index).result isCancelled)

/-- The token is set when one of the waves of the next tick is due. -/
def SeesToken (isCancelled : σ → Bool) (moment : Moment β σ) : Prop :=
  ∃ prepared, moment.loop.scheduler.prepare = .ok prepared ∧
    ∃ index < prepared.plan.waves.length,
      isCancelled (prepared.plan.upTo prepared.pool moment.context
        ⟨moment.shared, prepared.profiler⟩ index).2.shared = true

variable {isCancelled : σ → Bool} {moment : Moment β σ}

@[simp]
theorem after_zero (isCancelled : σ → Bool) (moment : Moment β σ) :
    moment.after isCancelled 0 = moment := rfl

theorem after_succ (isCancelled : σ → Bool) (count : Nat) (moment : Moment β σ) :
    moment.after isCancelled (count + 1) = (moment.after isCancelled count).next isCancelled :=
  Function.iterate_succ_apply' _ _ _

theorem reports_succ (isCancelled : σ → Bool) (count : Nat) (moment : Moment β σ) :
    moment.reports isCancelled (count + 1) = moment.reports isCancelled count ++
      (Scheduler.reportOf? ((moment.after isCancelled count).result isCancelled)).toList := by
  rw [reports, List.range_succ, List.filterMap_append]
  rfl

@[simp]
theorem tick_next (isCancelled : σ → Bool) (moment : Moment β σ) :
    (moment.next isCancelled).loop.tick = moment.loop.tick + 1 := rfl

@[simp]
theorem config_next (isCancelled : σ → Bool) (moment : Moment β σ) :
    (moment.next isCancelled).loop.config = moment.loop.config := rfl

theorem turn_eq (isCancelled : σ → Bool) (moment : Moment β σ) (stats : LoopStats) :
    moment.loop.turn stats isCancelled moment.shared =
      { result := moment.result isCancelled
        state := TickLoop.judged moment.loop.config stats (moment.result isCancelled)
        loop := (moment.next isCancelled).loop
        shared := (moment.next isCancelled).shared } := rfl

/-- The next tick is refused and changes nothing, or it has a report. -/
theorem result_cases (isCancelled : σ → Bool) (moment : Moment β σ) :
    (∃ dependency, moment.loop.scheduler.prepare = .error dependency ∧
        moment.result isCancelled = .error (.build dependency) ∧
        moment.next isCancelled =
          ⟨{ moment.loop with tick := moment.loop.tick + 1 }, moment.shared⟩) ∨
      ∃ prepared report profiler, moment.loop.scheduler.prepare = .ok prepared ∧
        moment.result isCancelled = Scheduler.resultOf report ∧
        report.tick = moment.loop.tick + 1 ∧
        (report.isCancelled = true ↔ moment.SeesToken isCancelled) ∧
        (moment.next isCancelled).loop.scheduler = { prepared with profiler := profiler } := by
  let halt : Nat → σ → Bool := fun _ shared => isCancelled shared
  cases hprepare : moment.loop.scheduler.prepare with
  | error dependency =>
      have htick := Scheduler.runTick_of_prepare_eq_error hprepare moment.context halt
        moment.shared
      refine Or.inl ⟨dependency, rfl, ?_, ?_⟩
      · exact congrArg Prod.fst htick
      · rw [next, TickLoop.runTick]
        dsimp only [context, halt] at htick
        rw [htick]
  | ok prepared =>
      have htick := Scheduler.runTick_of_prepare_eq_ok hprepare moment.context halt moment.shared
      let workspace : Workspace σ := ⟨moment.shared, prepared.profiler⟩
      let run := prepared.plan.execute prepared.pool moment.context halt workspace
      have hcut : run.1.isCancelled = true ↔ moment.SeesToken isCancelled := by
        have hfirst : run.1.isCancelled = true ↔
            prepared.plan.firstHalt prepared.pool moment.context halt workspace <
              prepared.plan.waves.length := by
          simp only [run, Plan.execute_eq_upTo, decide_eq_true_eq]
        rw [hfirst, Plan.firstHalt_lt_iff]
        constructor
        · exact fun hsees => ⟨prepared, hprepare, hsees⟩
        · rintro ⟨other, hother, hsees⟩
          obtain rfl := Except.ok.inj (hprepare.symm.trans hother)
          exact hsees
      refine Or.inr ⟨prepared, run.1, run.2.profiler, rfl, ?_, rfl, hcut, ?_⟩
      · exact congrArg Prod.fst htick
      · exact congrArg (fun tick => tick.2.1) htick

@[simp]
theorem tick_after (isCancelled : σ → Bool) (count : Nat) (moment : Moment β σ) :
    (moment.after isCancelled count).loop.tick = moment.loop.tick + count := by
  induction count with
  | zero => rfl
  | succ count ih => rw [after_succ, tick_next, ih, Nat.add_assoc]

@[simp]
theorem config_after (isCancelled : σ → Bool) (count : Nat) (moment : Moment β σ) :
    (moment.after isCancelled count).loop.config = moment.loop.config := by
  induction count with
  | zero => rfl
  | succ count ih => rw [after_succ, config_next, ih]

section Prepared

variable {prepared : Scheduler β} (hprepare : moment.loop.scheduler.prepare = .ok prepared)
include hprepare

/-- A tick that runs a plan leaves it in place, and it needs no other one. -/
theorem prepare_next :
    (moment.next isCancelled).loop.scheduler.prepare =
        .ok (moment.next isCancelled).loop.scheduler ∧
      (moment.next isCancelled).loop.scheduler.plan = prepared.plan := by
  rcases moment.result_cases isCancelled with ⟨dependency, hrefused, -⟩ |
    ⟨other, report, profiler, hother, -, -, -, hnext⟩
  · rw [hprepare] at hrefused
    cases hrefused
  · obtain rfl := Except.ok.inj (hprepare.symm.trans hother)
    rw [hnext]
    refine ⟨?_, rfl⟩
    rw [Scheduler.prepare]
    dsimp only
    rw [Scheduler.isDirty_of_prepare hprepare]
    rfl

/-- Once the plan could be made, no later tick makes another one. -/
theorem prepare_after (count : Nat) :
    (moment.after isCancelled (count + 1)).loop.scheduler.prepare =
        .ok (moment.after isCancelled (count + 1)).loop.scheduler ∧
      (moment.after isCancelled (count + 1)).loop.scheduler.plan = prepared.plan := by
  induction count with
  | zero => exact prepare_next hprepare
  | succ count ih =>
      obtain ⟨hready, hplan⟩ := ih
      rw [after_succ isCancelled (count + 1), ← hplan]
      exact prepare_next hready

variable (isCancelled) in
theorem exists_prepare_after (count : Nat) :
    ∃ later, (moment.after isCancelled count).loop.scheduler.prepare = .ok later := by
  cases count with
  | zero => exact ⟨prepared, hprepare⟩
  | succ count => exact ⟨_, (prepare_after hprepare count).1⟩

variable (isCancelled) in
/-- So every later tick has a report. -/
theorem exists_report_after (count : Nat) :
    ∃ report, (moment.after isCancelled count).result isCancelled =
        Scheduler.resultOf report ∧
      report.tick = moment.loop.tick + count + 1 ∧
      (report.isCancelled = true ↔ (moment.after isCancelled count).SeesToken isCancelled) := by
  obtain ⟨later, hlater⟩ := exists_prepare_after isCancelled hprepare count
  rcases (moment.after isCancelled count).result_cases isCancelled with
    ⟨dependency, hrefused, -⟩ | ⟨-, report, -, -, hresult, htick, hcut, -⟩
  · rw [hlater] at hrefused
    cases hrefused
  · rw [tick_after] at htick
    exact ⟨report, hresult, htick, hcut⟩

end Prepared

/-- So many ticks of a run have been whole, and the loop goes on. -/
structure GoesOn (isCancelled : σ → Bool) (stats : LoopStats) (moment : Moment β σ)
    (count : Nat) : Prop where
  run : TickLoop.runFor isCancelled count moment.loop stats moment.shared =
    (.running (stats.tallied (moment.reports isCancelled count)),
      (moment.after isCancelled count).loop, (moment.after isCancelled count).shared)
  length : (moment.reports isCancelled count).length = count
  whole : ∀ report ∈ moment.reports isCancelled count, report.isWhole = true

namespace GoesOn

variable {stats : LoopStats} {count : Nat}

theorem zero (isCancelled : σ → Bool) (stats : LoopStats) (moment : Moment β σ) :
    moment.GoesOn isCancelled stats 0 where
  run := rfl
  length := rfl
  whole _ hreport := by cases hreport

variable (hgoes : moment.GoesOn isCancelled stats count)
include hgoes

theorem ticks_eq : (stats.tallied (moment.reports isCancelled count)).ticks =
    stats.ticks + count := by
  have hall := List.countP_eq_length.mpr hgoes.whole
  rw [LoopStats.tallied, hall, hgoes.length]

theorem runFor_succ :
    TickLoop.runFor isCancelled (count + 1) moment.loop stats moment.shared =
      (TickLoop.judged moment.loop.config
          (stats.tallied (moment.reports isCancelled count))
          ((moment.after isCancelled count).result isCancelled),
        (moment.after isCancelled (count + 1)).loop,
        (moment.after isCancelled (count + 1)).shared) := by
  rw [TickLoop.runFor_add count 1 _ _ _ hgoes.run, TickLoop.runFor, turn_eq, config_after,
    after_succ]
  cases TickLoop.judged moment.loop.config (stats.tallied (moment.reports isCancelled count))
    ((moment.after isCancelled count).result isCancelled) <;> rfl

/-- A tick with a report is counted, whether it ends the loop or not. -/
theorem runFor_succ_of_report {report : Report}
    (hresult : (moment.after isCancelled count).result isCancelled =
      Scheduler.resultOf report) :
    moment.reports isCancelled (count + 1) =
        moment.reports isCancelled count ++ [report] ∧
      TickLoop.runFor isCancelled (count + 1) moment.loop stats moment.shared =
        (if report.isCancelled then
            .cancelled (stats.tallied (moment.reports isCancelled (count + 1)))
          else if 0 < moment.loop.config.maxTicks ∧
              moment.loop.config.maxTicks ≤ stats.ticks + (count + 1) then
            .complete (stats.tallied (moment.reports isCancelled (count + 1)))
          else .running (stats.tallied (moment.reports isCancelled (count + 1))),
          (moment.after isCancelled (count + 1)).loop,
          (moment.after isCancelled (count + 1)).shared) := by
  have hreports : moment.reports isCancelled (count + 1) =
      moment.reports isCancelled count ++ [report] := by
    rw [reports_succ, hresult, Scheduler.reportOf?_resultOf]
    rfl
  refine ⟨hreports, ?_⟩
  rw [hgoes.runFor_succ, hresult, TickLoop.judged_resultOf, hgoes.ticks_eq, hreports,
    LoopStats.tallied_append, Nat.add_assoc]

/-- A tick that is whole and does not reach the limit is one more. -/
theorem succ {report : Report}
    (hresult : (moment.after isCancelled count).result isCancelled = Scheduler.resultOf report)
    (hwhole : report.isCancelled = false)
    (hlimit : ¬ (0 < moment.loop.config.maxTicks ∧
      moment.loop.config.maxTicks ≤ stats.ticks + (count + 1))) :
    moment.GoesOn isCancelled stats (count + 1) := by
  obtain ⟨hreports, hrun⟩ := hgoes.runFor_succ_of_report hresult
  constructor
  · rw [hrun, hwhole, if_neg Bool.false_ne_true, if_neg hlimit]
  · rw [hreports, List.length_append, hgoes.length]
    rfl
  · rw [hreports]
    refine List.forall_mem_append.mpr ⟨hgoes.whole, fun other hother => ?_⟩
    rw [List.mem_singleton.mp hother, Report.isWhole, hwhole]
    rfl

/-- If the loop does not go on after one more tick, then its run ends with that tick. -/
theorem ends_or_succ :
    (TickLoop.runFor isCancelled (count + 1) moment.loop stats moment.shared).1.result?.isSome =
        true ∨
      moment.GoesOn isCancelled stats (count + 1) := by
  rcases (moment.after isCancelled count).result_cases isCancelled with
    ⟨dependency, -, hresult, -⟩ | ⟨-, report, -, -, hresult, -⟩
  · rw [hgoes.runFor_succ, hresult]
    exact Or.inl rfl
  · cases hcut : report.isCancelled with
    | true =>
        rw [(hgoes.runFor_succ_of_report hresult).2, if_pos hcut]
        exact Or.inl rfl
    | false =>
        by_cases hlimit : 0 < moment.loop.config.maxTicks ∧
            moment.loop.config.maxTicks ≤ stats.ticks + (count + 1)
        · rw [(hgoes.runFor_succ_of_report hresult).2, hcut, if_neg Bool.false_ne_true,
            if_pos hlimit]
          exact Or.inl rfl
        · exact Or.inr (hgoes.succ hresult hcut hlimit)

end GoesOn

/-- A run goes on, or it has ended with the tick after some that were whole. -/
theorem runFor_cases (isCancelled : σ → Bool) (stats : LoopStats) (moment : Moment β σ)
    (turns : Nat) :
    moment.GoesOn isCancelled stats turns ∨
      ∃ count < turns, moment.GoesOn isCancelled stats count ∧
        TickLoop.runFor isCancelled turns moment.loop stats moment.shared =
          TickLoop.runFor isCancelled (count + 1) moment.loop stats moment.shared ∧
        (TickLoop.runFor isCancelled (count + 1) moment.loop stats
          moment.shared).1.result?.isSome = true := by
  induction turns with
  | zero => exact Or.inl (.zero isCancelled stats moment)
  | succ turns ih =>
      rcases ih with hgoes | ⟨count, hlt, hgoes, hrun, hended⟩
      · rcases hgoes.ends_or_succ with hended | hgoes'
        · exact Or.inr ⟨turns, Nat.lt_succ_self turns, hgoes, rfl, hended⟩
        · exact Or.inl hgoes'
      · refine Or.inr ⟨count, Nat.lt_succ_of_lt hlt, hgoes, ?_, hended⟩
        exact (TickLoop.runFor_add_of_ended hrun hended 1)

end Moment

end TickWaves
