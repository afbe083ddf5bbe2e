import TickWaves.Proofs.Loop.Course

/-!
# A cancelled loop

A loop does not look at its cancel token itself.  It goes by the report of the tick, and the
tick looks at the token before each wave.  If the token is set when a tick starts, no body
is run.  With a system registered there is a first wave, so the tick is cancelled and the
loop ends at once.  Without one there is no wave: the tick is counted like any other, and a
loop without a limit goes on for ever (`TickLoop.heedsToken_of_reachable`).
-/

namespace TickWaves

universe u v

variable {β : Type u} {σ : Type v}

namespace Plan

/-- The report on a tick in which no wave was run. -/
def idleReport (plan : Plan β) (context : TickContext) : Report where
  tick := context.tick
  generation := plan.generation
  outcomes := plan.outcomes []
  wavesRun := 0
  isCancelled := decide (0 < plan.waves.length)

theorem failures_idleReport (plan : Plan β) (context : TickContext) :
    (plan.idleReport context).failures = [] := by
  rw [Report.failures, List.filterMap_eq_nil_iff]
  intro outcome houtcome
  obtain ⟨⟨wave, index⟩, -, hwave⟩ := List.mem_flatMap.mp houtcome
  obtain ⟨⟨node, system⟩, -, rfl⟩ := List.mem_map.mp hwave
  rfl

section Halted

variable [Behaviour β σ] {plan : Plan β} {pool : Pool} {context : TickContext}
variable {halt : Nat → σ → Bool} {workspace : Workspace σ}

theorem firstHalt_eq_zero (hhalt : halt 0 workspace.shared = true) :
    plan.firstHalt pool context halt workspace = 0 := by
  by_contra hlater
  have hclear := halt_eq_false_of_lt_firstHalt (Nat.pos_of_ne_zero hlater)
  exact Bool.false_ne_true (hclear.symm.trans hhalt)

/-- A tick that is cancelled before its first wave changes nothing. -/
theorem execute_of_halt (hhalt : halt 0 workspace.shared = true) :
    plan.execute pool context halt workspace = (plan.idleReport context, workspace) := by
  rw [execute_eq_upTo, firstHalt_eq_zero hhalt]
  rfl

theorem journal_of_halt (hhalt : halt 0 workspace.shared = true) :
    plan.journal pool context halt workspace = [] := by
  rw [journal_eq_journalUpTo, firstHalt_eq_zero hhalt]
  rfl

end Halted

end Plan

namespace TickLoop

variable [Behaviour β σ] {isCancelled : σ → Bool}

/-- What a turn does whose tick runs no wave. -/
theorem turn_of_isCancelled {loop : TickLoop β} {prepared : Scheduler β} {shared : σ}
    (hprepare : loop.scheduler.prepare = .ok prepared) (hcancelled : isCancelled shared = true)
    (stats : LoopStats) :
    loop.turn stats isCancelled shared =
      { result := .ok (prepared.plan.idleReport ⟨loop.tick + 1, loop.budget.toFloat⟩)
        state :=
          if 0 < prepared.plan.waves.length then .cancelled stats
          else counted loop.config stats
        loop := { loop with tick := loop.tick + 1, scheduler := prepared }
        shared := shared } := by
  let context : TickContext := ⟨loop.tick + 1, loop.budget.toFloat⟩
  have hexecute : prepared.plan.execute prepared.pool context (fun _ shared => isCancelled shared)
      ⟨shared, prepared.profiler⟩ =
        (prepared.plan.idleReport context, ⟨shared, prepared.profiler⟩) :=
    Plan.execute_of_halt hcancelled
  have hresult : Scheduler.resultOf (prepared.plan.idleReport context) =
      .ok (prepared.plan.idleReport context) := by
    rw [Scheduler.resultOf, ExecutionFailure.ofReport, Plan.failures_idleReport]
    rfl
  have hstate : judged loop.config stats (.ok (prepared.plan.idleReport context)) =
      if 0 < prepared.plan.waves.length then .cancelled stats else counted loop.config stats := by
    simp [judged, Plan.idleReport]
  rw [turn, runTick, Scheduler.runTick_of_prepare_eq_ok hprepare]
  dsimp only
  rw [hexecute, hresult, hstate]

/-- The loop starts no body and ends at once: it returns its counts as they were, whatever
ran before. -/
structure EndsAtOnce (loop : TickLoop β) (isCancelled : σ → Bool) (stats : LoopStats)
    (shared : σ) : Prop where
  runs : loop.scheduler.runs ⟨loop.tick + 1, loop.budget.toFloat⟩
    (fun _ shared => isCancelled shared) shared = []
  ends : ∀ earlier start before sharedBefore,
    runFor isCancelled earlier start before sharedBefore = (.running stats, loop, shared) →
      ∀ turns, ∃ after, after.tick = loop.tick + 1 ∧
        runFor isCancelled (earlier + (turns + 1)) start before sharedBefore =
          (.cancelled stats, after, shared)

/-- What becomes of a loop whose token is set. -/
structure HeedsToken (loop : TickLoop β) (isCancelled : σ → Bool) (stats : LoopStats)
    (shared : σ) : Prop where
  untouched : loop.scheduler.runs ⟨loop.tick + 1, loop.budget.toFloat⟩
      (fun _ shared => isCancelled shared) shared = [] ∧
    (loop.turn stats isCancelled shared).shared = shared
  endsAtOnce_iff : loop.EndsAtOnce isCancelled stats shared ↔ loop.scheduler.table.toList ≠ []
  counted : loop.scheduler.table.toList = [] →
    (loop.turn stats isCancelled shared).state = counted loop.config stats
  endless : loop.scheduler.table.toList = [] → loop.config.maxTicks = 0 →
    ∀ turns, ∃ last, runFor isCancelled turns loop stats shared =
      (.running { stats with ticks := stats.ticks + turns }, last, shared)

variable {config : Config} {pool : Pool} {loop : TickLoop β} {shared : σ}

/-- A loop without waves and without a limit does not heed its token. -/
theorem exists_runFor_of_vacant {prepared : Scheduler β}
    (hprepare : loop.scheduler.prepare = .ok prepared) (hwaves : prepared.plan.waves = [])
    (hlimit : loop.config.maxTicks = 0) (hcancelled : isCancelled shared = true) (turns : Nat)
    (stats : LoopStats) :
    ∃ last, runFor isCancelled turns loop stats shared =
      (.running { stats with ticks := stats.ticks + turns }, last, shared) := by
  induction turns generalizing loop stats with
  | zero => exact ⟨loop, rfl⟩
  | succ turns ih =>
      have hcounted : counted loop.config stats =
          .running { stats with ticks := stats.ticks + 1 } := by
        rw [counted, hlimit]
        rfl
      have hagain : prepared.prepare = .ok prepared := by
        rw [Scheduler.prepare, Scheduler.isDirty_of_prepare hprepare]
        rfl
      obtain ⟨last, hlast⟩ := @ih { loop with tick := loop.tick + 1, scheduler := prepared }
        hagain hlimit { stats with ticks := stats.ticks + 1 }
      refine ⟨last, ?_⟩
      rw [runFor, turn_of_isCancelled hprepare hcancelled, hwaves]
      dsimp only [List.length_nil]
      rw [if_neg (Nat.lt_irrefl 0), hcounted]
      dsimp only
      rw [hlast, Nat.add_right_comm, Nat.add_assoc]

/-- If the token is set when a tick of a loop starts, then no body is run; the loop ends at
once exactly if a system is registered. -/
theorem heedsToken_of_reachable (hreach : Scheduler.Reachable σ config pool loop.scheduler)
    {prepared : Scheduler β} (hprepare : loop.scheduler.prepare = .ok prepared)
    (hcancelled : isCancelled shared = true) (stats : LoopStats) :
    loop.HeedsToken isCancelled stats shared := by
  have hturn := turn_of_isCancelled hprepare hcancelled stats
  have hwaves : prepared.plan.waves = [] ↔ loop.scheduler.table.toList = [] :=
    Plan.waves_eq_nil_iff_of_build (hreach.isFresh.build_of_prepare hprepare)
  have hruns : loop.scheduler.runs ⟨loop.tick + 1, loop.budget.toFloat⟩
      (fun _ shared => isCancelled shared) shared = [] := by
    rw [Scheduler.runs, hprepare]
    exact Plan.journal_of_halt hcancelled
  have hvacant : loop.scheduler.table.toList = [] →
      (loop.turn stats isCancelled shared).state = TickLoop.counted loop.config stats := by
    intro hnone
    rw [hturn, hwaves.mpr hnone]
    rfl
  refine ⟨⟨hruns, by rw [hturn]⟩, ⟨fun hends hnone => ?_, fun hsome => ?_⟩, hvacant,
    fun hnone hlimit turns =>
      exists_runFor_of_vacant hprepare (hwaves.mpr hnone) hlimit hcancelled turns stats⟩
  · obtain ⟨after, -, hrun⟩ := hends.ends 0 loop stats shared rfl 0
    have hstate : ∀ last, (loop.turn stats isCancelled shared).state ≠ .cancelled last := by
      intro last
      rw [hvacant hnone, TickLoop.counted]
      split <;> rintro ⟨⟩
    rw [runFor] at hrun
    cases hlast : (loop.turn stats isCancelled shared).state with
    | running next => rw [hlast] at hrun; cases hrun
    | complete last => rw [hlast] at hrun; cases hrun
    | cancelled last => exact hstate last hlast
    | broken dependency => rw [hlast] at hrun; cases hrun
  · refine ⟨hruns, fun earlier start before sharedBefore hrun turns => ?_⟩
    have hpos : 0 < prepared.plan.waves.length :=
      List.length_pos_iff.mpr (mt hwaves.mp hsome)
    rw [runFor_add earlier (turns + 1) start before sharedBefore hrun, runFor, hturn,
      if_pos hpos]
    exact ⟨_, rfl, rfl⟩

/-- A body that may set the token, which is all that the systems share. -/
structure Watch where
  cancels : Bool

instance : Behaviour Watch Bool where
  run watch _ _ token := ⟨.done, token || watch.cancels, .zero⟩

def vacant : TickLoop Watch :=
  ⟨0, ⟨1000.0, 2⟩, ⟨1000000⟩, Scheduler.withPool (Config.ofCores 1) .inline⟩

theorem heedsToken_of_reachable_watch :
    ∃ scheduler prepared : Scheduler Watch,
      Scheduler.Reachable Bool (Config.ofCores 1) .inline scheduler ∧
        scheduler.prepare = .ok prepared ∧ scheduler.table.size = 1 ∧
          TickLoop.HeedsToken { vacant with scheduler := scheduler } (id : Bool → Bool) .zero
            true := by
  have hstart : Scheduler.Reachable Bool (Config.ofCores 1) .inline
      (Scheduler.withPool (Config.ofCores 1) .inline : Scheduler Watch) := .start
  have hwatch := hstart.register (Descriptor.ofBody "watch" ⟨false⟩) ⟨1⟩ rfl
  obtain ⟨scheduler, hready, hsize, hreach⟩ : ∃ scheduler : Scheduler Watch,
      scheduler.prepare.isOk = true ∧ scheduler.table.size = 1 ∧
        Scheduler.Reachable Bool (Config.ofCores 1) .inline scheduler := by
    refine ⟨_, ?_, ?_, hwatch⟩
    · decide +kernel
    · decide +kernel
  cases hprepare : scheduler.prepare with
  | error dependency =>
      rw [hprepare] at hready
      cases hready
  | ok prepared =>
      have hheeds : TickLoop.HeedsToken { vacant with scheduler := scheduler }
          (id : Bool → Bool) .zero true := heedsToken_of_reachable hreach hprepare rfl .zero
      exact ⟨scheduler, prepared, hreach, hprepare, hsize, hheeds⟩

/-- Without systems a loop runs through all its ticks although its token is set. -/
theorem not_endsAtOnce_vacant :
    Scheduler.Reachable Bool (Config.ofCores 1) .inline vacant.scheduler ∧
      vacant.scheduler.prepare.isOk = true ∧
      (runFor (id : Bool → Bool) 5 vacant .zero true).1 = .complete ⟨2, 0⟩ ∧
      ¬ vacant.EndsAtOnce (id : Bool → Bool) .zero true := by
  have hrun : (runFor (id : Bool → Bool) 5 vacant .zero true).1 = .complete ⟨2, 0⟩ := by
    decide +kernel
  refine ⟨.start, by decide +kernel, hrun, fun hends => ?_⟩
  obtain ⟨after, -, hcancelled⟩ := hends.ends 0 vacant .zero true rfl 4
  rw [hcancelled] at hrun
  cases hrun

end TickLoop

end TickWaves
