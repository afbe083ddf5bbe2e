import TickWaves.Proofs.Loop.Course

/-!
# What a loop counts

A run that ends well has counted the ticks that were not cut short, and as failed ticks all
those in which a system failed, the one that was cut short included
(`TickLoop.tallies_of_runFor`).  So the failed ticks are among the counted ones unless the
token is set in the tick in which a system fails: then there may be more failed ticks than
ticks (`TickLoop.not_isConsistent_spoiled`).
-/

namespace TickWaves

universe u v

variable {β : Type u} {σ : Type v}

namespace LoopStats

/-- The failed ticks are those among the counted ones in which a system failed. -/
def IsConsistent (stats : LoopStats) (reports : List Report) : Prop :=
  stats.failedTicks = (reports.filter Report.isWhole).countP Report.hasFailures

/-- What is counted of ticks with these reports, of which only the last one may have been
cut short. -/
structure Tallies (stats : LoopStats) (reports : List Report) : Prop where
  whole : ∀ report ∈ reports.dropLast, report.isWhole = true
  ticks : stats.ticks = (reports.filter Report.isWhole).length
  failedTicks : stats.failedTicks = reports.countP Report.hasFailures
  isConsistent_iff : stats.IsConsistent reports ↔
    ∀ report ∈ reports, report.hasFailures = true → report.isWhole = true
  le_of_isConsistent : stats.IsConsistent reports → stats.failedTicks ≤ stats.ticks
  le_succ : stats.failedTicks ≤ stats.ticks + 1

theorem countP_filter_eq_iff {α : Type*} {p q : α → Bool} {elements : List α} :
    elements.countP p = (elements.filter q).countP p ↔
      ∀ element ∈ elements, p element = true → q element = true := by
  rw [List.countP_eq_countP_filter_add elements p q, Nat.add_eq_left, List.countP_eq_zero]
  simp only [List.mem_filter, Bool.not_eq_true', and_imp]
  constructor
  · intro hnone element hmem hp
    by_contra hq
    exact hnone element hmem (Bool.eq_false_iff.mpr hq) hp
  · intro hall element hmem hq hp
    exact Bool.false_ne_true (hq.symm.trans (hall element hmem hp))

theorem tallies_of_forall_whole {reports : List Report} {report : Report}
    (hwhole : ∀ other ∈ reports, other.isWhole = true) :
    (zero.tallied (reports ++ [report])).Tallies (reports ++ [report]) := by
  have hticks : (zero.tallied (reports ++ [report])).ticks =
      ((reports ++ [report]).filter Report.isWhole).length := by
    rw [tallied, List.countP_eq_length_filter]
    exact Nat.zero_add _
  have hfailed : (zero.tallied (reports ++ [report])).failedTicks =
      (reports ++ [report]).countP Report.hasFailures :=
    Nat.zero_add _
  constructor
  · rw [List.dropLast_concat]
    exact hwhole
  · exact hticks
  · exact hfailed
  · rw [IsConsistent, hfailed]
    exact countP_filter_eq_iff
  · intro hconsistent
    rw [hconsistent, hticks]
    exact List.countP_le_length
  · calc
      (zero.tallied (reports ++ [report])).failedTicks =
          (reports ++ [report]).countP Report.hasFailures := hfailed
      _ ≤ (reports ++ [report]).length := List.countP_le_length
      _ = reports.length + 1 := List.length_append
      _ = (reports.filter Report.isWhole).length + 1 := by rw [List.filter_eq_self.mpr hwhole]
      _ ≤ (zero.tallied (reports ++ [report])).ticks + 1 := by
        rw [hticks, List.filter_append, List.length_append]
        exact Nat.succ_le_succ (Nat.le_add_right _ _)

end LoopStats

namespace TickLoop

variable [Behaviour β σ] {isCancelled : σ → Bool}

/-- A run that ends well has made some ticks, all of which have a report, and counts them by
their reports. -/
theorem tallies_of_runFor {turns : Nat} {loop last : TickLoop β} {shared shared' : σ}
    {state : LoopState} {stats : LoopStats}
    (hrun : runFor isCancelled turns loop .zero shared = (state, last, shared'))
    (hresult : state.result? = some (.ok stats)) :
    ∃ count, 0 < count ∧ count ≤ turns ∧
      (Moment.mk loop shared).after isCancelled count = ⟨last, shared'⟩ ∧
      ((Moment.mk loop shared).reports isCancelled count).length = count ∧
      stats.Tallies ((Moment.mk loop shared).reports isCancelled count) := by
  let start : Moment β σ := ⟨loop, shared⟩
  rcases start.runFor_cases isCancelled .zero turns with hgoes | ⟨count, hlt, hgoes, hsame, -⟩
  · obtain ⟨rfl, -⟩ := Prod.mk.inj (hgoes.run.symm.trans hrun)
    cases hresult
  refine ⟨count + 1, Nat.succ_pos count, hlt, ?_⟩
  have hended : runFor isCancelled (count + 1) loop .zero shared = (state, last, shared') :=
    hsame.symm.trans hrun
  rcases (start.after isCancelled count).result_cases isCancelled with
    ⟨dependency, -, hbroken, -⟩ | ⟨-, report, -, -, hreport, -⟩
  · rw [hgoes.runFor_succ, hbroken] at hended
    obtain ⟨rfl, -⟩ := Prod.mk.inj hended
    cases hresult
  · obtain ⟨hreports, hrun'⟩ := hgoes.runFor_succ_of_report hreport
    obtain ⟨hstate, hlast⟩ := Prod.mk.inj (hrun'.symm.trans hended)
    obtain ⟨hloop, hshared⟩ := Prod.mk.inj hlast
    have hstats : stats = LoopStats.zero.tallied (start.reports isCancelled (count + 1)) := by
      rw [← hstate] at hresult
      split at hresult
      · exact (Except.ok.inj (Option.some.inj hresult)).symm
      · split at hresult
        · exact (Except.ok.inj (Option.some.inj hresult)).symm
        · cases hresult
    refine ⟨?_, ?_, ?_⟩
    · rw [← hloop, ← hshared]
    · rw [hreports, List.length_append, hgoes.length]
      rfl
    · rw [hstats, hreports]
      exact LoopStats.tallies_of_forall_whole hgoes.whole

/-- A body that may fail and that sets the token in one of the ticks; the token is all that
the systems share. -/
structure Mishap where
  fails : Bool
  cancelsAt : Nat

instance : Behaviour Mishap Bool where
  run mishap context _ token :=
    ⟨if mishap.fails then .failed ["mishap"] else .done,
      token || context.tick == mishap.cancelsAt, .zero⟩

/-- A loop of three ticks with two systems in two waves.  The first one fails in every tick
and sets the token in the given one. -/
def spoiled (cancelsAt : Nat) : TickLoop Mishap where
  tick := 0
  config := ⟨1000.0, 3⟩
  budget := ⟨1000000⟩
  scheduler := (Scheduler.withPool (Config.ofCores 1) .inline).performAll
    ([.register ((Descriptor.ofBody "source" ⟨true, cancelsAt⟩).writing ⟨7⟩),
      .register ((Descriptor.ofBody "sink" ⟨false, 0⟩).reading ⟨7⟩)] :
        List (Scheduler.Operation Mishap Bool))

theorem tallies_of_runFor_spoiled :
    ∃ state last token,
      runFor (id : Bool → Bool) 5 (spoiled 3) .zero false = (state, last, token) ∧
        state.result? = some (.ok ⟨2, 3⟩) ∧
        ∃ count, 0 < count ∧ count ≤ 5 ∧
          (Moment.mk (spoiled 3) false).after id count = ⟨last, token⟩ ∧
          ((Moment.mk (spoiled 3) false).reports id count).length = count ∧
          LoopStats.Tallies ⟨2, 3⟩ ((Moment.mk (spoiled 3) false).reports id count) := by
  have hresult : (runFor (id : Bool → Bool) 5 (spoiled 3) .zero false).1.result? =
      some (.ok ⟨2, 3⟩) := by
    have hstate : (runFor (id : Bool → Bool) 5 (spoiled 3) .zero false).1 =
        .cancelled ⟨2, 3⟩ := by
      decide +kernel
    rw [hstate]
    rfl
  exact ⟨_, _, _, rfl, hresult, tallies_of_runFor rfl hresult⟩

/-- A tick in which a system fails and the token is set counts as a failed tick, but not as
a tick. -/
theorem not_isConsistent_spoiled :
    Scheduler.Reachable Bool (Config.ofCores 1) .inline (spoiled 1).scheduler ∧
      (runFor (id : Bool → Bool) 5 (spoiled 1) .zero false).1 = .cancelled ⟨0, 1⟩ ∧
      ((Moment.mk (spoiled 1) false).reports id 1).map Report.isCancelled = [true] ∧
      ¬ LoopStats.IsConsistent ⟨0, 1⟩ ((Moment.mk (spoiled 1) false).reports id 1) ∧
      ¬ LoopStats.failedTicks ⟨0, 1⟩ ≤ LoopStats.ticks ⟨0, 1⟩ := by
  refine ⟨Scheduler.Reachable.start.performAll _, by decide +kernel, by decide +kernel, ?_,
    by decide⟩
  rw [LoopStats.IsConsistent]
  decide +kernel

end TickLoop

end TickWaves
