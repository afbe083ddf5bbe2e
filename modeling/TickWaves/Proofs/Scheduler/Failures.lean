import TickWaves.Proofs.Scheduler.Rebuilds
import TickWaves.Proofs.Tick.Policy

/-!
# Failures account for every skip

A report lists one failure for each system that failed, with the systems that were skipped
for it.  A system is skipped for one failed system only, and identifiers are distinct in all
states that operations lead to, so no skip is listed twice; and who it is skipped for did
fail, so none is lost (`Scheduler.accountsForFailures_of_reachable`).
-/

namespace TickWaves

open Relation

universe u v

/-! ## The failures of a report -/

structure Failure.IsOf (failure : Failure) (outcome : Outcome) : Prop where
  id_eq : failure.id = outcome.id
  name_eq : failure.name = outcome.name
  wave_eq : failure.wave = outcome.wave
  status_eq : outcome.status = .failed failure.error

namespace Report

variable {report : Report}

theorem failure?_eq_some_iff {outcome : Outcome} {failure : Failure} :
    report.failure? outcome = some failure ↔ failure.IsOf outcome ∧
      failure.siblings = report.siblings outcome ∧
        failure.skipped = report.skippedBy outcome.id := by
  rw [failure?, Option.map_eq_some_iff]
  constructor
  · rintro ⟨error, herror, rfl⟩
    refine ⟨⟨rfl, rfl, rfl, ?_⟩, rfl, rfl⟩
    cases hstatus : outcome.status with
    | failed other =>
        rw [hstatus] at herror
        rw [Option.some.inj herror]
    | completed | skipped _ | cancelled =>
        rw [hstatus] at herror
        cases herror
  · obtain ⟨id, name, wave, error, siblings, skipped⟩ := failure
    rintro ⟨⟨rfl, rfl, rfl, hstatus⟩, rfl, rfl⟩
    exact ⟨error, by rw [hstatus, Status.error?], rfl⟩

/-- There is one failure for every system that failed, in the same order. -/
theorem forall₂_failures (report : Report) :
    List.Forall₂ Failure.IsOf report.failures report.failed := by
  rw [failures, failed]
  induction report.outcomes with
  | nil => exact .nil
  | cons outcome outcomes ih =>
      rw [List.filterMap_cons, List.filter_cons]
      cases hfailure : report.failure? outcome with
      | none =>
          have hnone : outcome.status.error? = none := by simpa [failure?] using hfailure
          rw [hnone]
          exact ih
      | some failure =>
          have hof := (failure?_eq_some_iff.mp hfailure).1
          rw [hof.status_eq]
          exact .cons hof ih

theorem mem_failures_iff {failure : Failure} :
    failure ∈ report.failures ↔ ∃ outcome ∈ report.outcomes, failure.IsOf outcome ∧
      failure.siblings = report.siblings outcome ∧
        failure.skipped = report.skippedBy outcome.id := by
  simp only [failures, List.mem_filterMap, failure?_eq_some_iff]

theorem exists_failure_of_status_eq {outcome : Outcome} {error : SystemError}
    (houtcome : outcome ∈ report.outcomes) (hstatus : outcome.status = .failed error) :
    ∃ failure ∈ report.failures, failure.id = outcome.id ∧
      failure.skipped = report.skippedBy outcome.id :=
  ⟨⟨outcome.id, outcome.name, outcome.wave, error, report.siblings outcome,
      report.skippedBy outcome.id⟩,
    mem_failures_iff.mpr ⟨outcome, houtcome, ⟨rfl, rfl, rfl, hstatus⟩, rfl, rfl⟩, rfl, rfl⟩

theorem pairwise_wave_failures (hordered : (report.outcomes.map Outcome.wave).Pairwise (· ≤ ·)) :
    (report.failures.map Failure.wave).Pairwise (· ≤ ·) := by
  rw [List.pairwise_map, failures, List.pairwise_filterMap]
  refine (List.pairwise_map.mp hordered).imp fun hle failure hfailure other hother => ?_
  rwa [(failure?_eq_some_iff.mp hfailure).1.wave_eq, (failure?_eq_some_iff.mp hother).1.wave_eq]

section Distinct

variable (hids : (report.outcomes.map Outcome.id).Nodup)
include hids

theorem status?_eq_some_iff {id : SystemId} {status : Status} :
    report.status? id = some status ↔
      ∃ outcome ∈ report.outcomes, outcome.id = id ∧ outcome.status = status := by
  rw [status?, outcome?, Option.map_eq_some_iff]
  simp only [find?_key_eq_some_iff hids, and_assoc]

theorem status?_ne_failed (hnone : report.failures = []) (id : SystemId) (error : SystemError) :
    report.status? id ≠ some (.failed error) := by
  intro hfailed
  obtain ⟨outcome, houtcome, -, hstatus⟩ := (status?_eq_some_iff hids).mp hfailed
  obtain ⟨failure, hfailure, -⟩ := exists_failure_of_status_eq houtcome hstatus
  rw [hnone] at hfailure
  cases hfailure

theorem mem_skippedBy_iff {id source : SystemId} :
    id ∈ report.skippedBy source ↔ report.status? id = some (.skipped source) := by
  rw [status?_eq_some_iff hids, skippedBy, List.mem_map]
  simp only [List.mem_filter, Status.isSkippedBy, beq_iff_eq, and_assoc]
  exact exists_congr fun outcome => and_congr_right fun _ => and_comm

theorem nodup_skippedBy (source : SystemId) : (report.skippedBy source).Nodup :=
  hids.sublist (List.filter_sublist.map _)

/-- Who was skipped was skipped for one failure only. -/
theorem pairwise_disjoint_failures :
    report.failures.Pairwise fun failure other => failure.skipped.Disjoint other.skipped := by
  rw [failures, List.pairwise_filterMap]
  refine (List.pairwise_map.mp hids).imp fun hne failure hfailure other hother => ?_
  obtain ⟨-, -, hskipped⟩ := failure?_eq_some_iff.mp hfailure
  obtain ⟨-, -, hskipped'⟩ := failure?_eq_some_iff.mp hother
  rw [hskipped, hskipped']
  intro id hid hid'
  rw [mem_skippedBy_iff hids] at hid hid'
  exact hne (Status.skipped.inj (Option.some.inj (hid.symm.trans hid')))

end Distinct

end Report

namespace Plan

variable {β : Type u} {σ : Type v} {plan : Plan β} {settled : List Settled}

/-! ## The outcomes, wave by wave -/

theorem flatMap_zipIdx_ite {α : Type*} {γ : Type*} {elements : List α} {element : α}
    (f : α → Nat → List γ) (start : Nat) {index : Nat}
    (helement : elements[index]? = some element) :
    ((elements.zipIdx start).flatMap fun entry =>
        if entry.2 = start + index then f entry.1 entry.2 else []) =
      f element (start + index) := by
  induction elements generalizing start index with
  | nil => cases helement
  | cons head rest ih =>
      rw [List.zipIdx_cons, List.flatMap_cons]
      cases index with
      | zero =>
          obtain rfl : head = element := Option.some.inj helement
          have hrest : ((rest.zipIdx (start + 1)).flatMap fun entry =>
              if entry.2 = start + 0 then f entry.1 entry.2 else []) = [] := by
            refine List.flatMap_eq_nil_iff.mpr fun entry hentry => if_neg ?_
            have hle := List.le_snd_of_mem_zipIdx hentry
            omega
          rw [hrest, List.append_nil, if_pos (Nat.add_zero start).symm, Nat.add_zero]
      | succ index =>
          have hsame : start + 1 + index = start + (index + 1) := by omega
          have hrest := ih (start + 1) (show rest[index]? = some element from helement)
          rw [if_neg (by omega), List.nil_append, ← hsame]
          exact hrest

theorem exists_outcomes_eq [Behaviour β σ] {pool : Pool} {context : TickContext}
    {halt : Nat → σ → Bool} {workspace : Workspace σ} {report : Report}
    (hreport : (plan.execute pool context halt workspace).1 = report) :
    ∃ settled, report.outcomes = plan.outcomes settled := by
  rw [← hreport]
  exact ⟨_, rfl⟩

/-- The outcomes of a wave are those of its members. -/
theorem filter_wave_outcomes {wave : Wave} {index : Nat}
    (hwave : plan.waves[index]? = some wave) :
    ((plan.outcomes settled).filter fun outcome => outcome.wave == index) =
      (plan.systemsAt wave.nodes).map fun entry =>
        outcomeOf settled index entry.1 entry.2 := by
  let ofWave (wave : Wave) (index : Nat) : List Outcome :=
    (plan.systemsAt wave.nodes).map fun entry => outcomeOf settled index entry.1 entry.2
  have hpart : ∀ entry : Wave × Nat,
      ((ofWave entry.1 entry.2).filter fun outcome => outcome.wave == index) =
        if entry.2 = 0 + index then ofWave entry.1 entry.2 else [] := by
    intro entry
    rw [Nat.zero_add]
    split
    case isTrue heq =>
      refine List.filter_eq_self.mpr fun outcome houtcome => ?_
      obtain ⟨located, -, rfl⟩ := List.mem_map.mp houtcome
      exact beq_iff_eq.mpr heq
    case isFalse hne =>
      refine List.filter_eq_nil_iff.mpr fun outcome houtcome htest => ?_
      obtain ⟨located, -, rfl⟩ := List.mem_map.mp houtcome
      exact hne (beq_iff_eq.mp htest)
  calc
    ((plan.outcomes settled).filter fun outcome => outcome.wave == index) =
        plan.waves.zipIdx.flatMap fun entry =>
          (ofWave entry.1 entry.2).filter fun outcome => outcome.wave == index := by
      rw [outcomes, List.filter_flatMap]
    _ = plan.waves.zipIdx.flatMap fun entry =>
          if entry.2 = 0 + index then ofWave entry.1 entry.2 else [] :=
      List.flatMap_congr fun entry _ => hpart entry
    _ = ofWave wave index := by rw [flatMap_zipIdx_ite ofWave 0 hwave, Nat.zero_add]

theorem pairwise_wave_outcomes (plan : Plan β) (settled : List Settled) :
    ((plan.outcomes settled).map Outcome.wave).Pairwise (· ≤ ·) := by
  rw [List.pairwise_map, outcomes, List.pairwise_flatMap]
  constructor
  · rintro ⟨wave, index⟩ -
    rw [List.pairwise_map]
    exact List.pairwise_of_forall fun _ _ => Nat.le_refl index
  · have hindices : (plan.waves.zipIdx.map Prod.snd).Pairwise (· < ·) := by
      rw [List.zipIdx_map_snd]
      exact List.pairwise_lt_range'
    refine (List.pairwise_map.mp hindices).imp fun {first second} hlt outcome houtcome
      other hother => ?_
    obtain ⟨entry, -, rfl⟩ := List.mem_map.mp houtcome
    obtain ⟨entry', -, rfl⟩ := List.mem_map.mp hother
    exact Nat.le_of_lt hlt

section Built

variable {systems : List (Descriptor β)} {tags : TagOrder} {generation : Nat}
variable (hbuild : build systems tags generation = .ok plan)
include hbuild

theorem map_id_filter_wave_outcomes {wave : Wave} {index : Nat}
    (hwave : plan.waves[index]? = some wave) :
    ((plan.outcomes settled).filter fun outcome => outcome.wave == index).map Outcome.id =
      wave.members := by
  calc
    ((plan.outcomes settled).filter fun outcome => outcome.wave == index).map Outcome.id =
        (plan.systemsAt wave.nodes).map fun entry => entry.2.id := by
      rw [filter_wave_outcomes hwave, List.map_map]
      rfl
    _ = wave.nodes.filterMap fun node => systems[node]?.map Descriptor.id := by
      rw [systemsAt, List.map_filterMap]
      refine List.filterMap_congr fun node _ => ?_
      rw [getElem?_systems_of_build hbuild, Option.map_map, Option.map_map]
      rfl
    _ = (wave.members.map some).filterMap id := by
      rw [map_some_members_of_build hbuild (List.mem_of_getElem? hwave), List.filterMap_map]
      rfl
    _ = wave.members := by
      rw [List.filterMap_map]
      exact List.filterMap_some

/-- An outcome names the wave that its system is in. -/
theorem exists_wave_of_mem_outcomes {outcome : Outcome}
    (houtcome : outcome ∈ plan.outcomes settled) :
    ∃ wave, plan.waves[outcome.wave]? = some wave ∧ outcome.id ∈ wave.members := by
  obtain ⟨⟨wave, index⟩, hentry, hmem⟩ := List.mem_flatMap.mp houtcome
  obtain ⟨located, -, heq⟩ := List.mem_map.mp hmem
  have hindex : outcome.wave = index := by
    rw [← heq]
    rfl
  have hwave : plan.waves[outcome.wave]? = some wave := by
    rw [hindex]
    exact List.mem_zipIdx_iff_getElem?.mp hentry
  refine ⟨wave, hwave, ?_⟩
  rw [← map_id_filter_wave_outcomes hbuild hwave]
  exact List.mem_map_of_mem (List.mem_filter.mpr ⟨houtcome, beq_self_eq_true _⟩)

/-- The siblings of a system are the rest of its wave. -/
theorem siblings_eq {report : Report} (hreport : report.outcomes = plan.outcomes settled)
    {outcome : Outcome} {wave : Wave} (hwave : plan.waves[outcome.wave]? = some wave) :
    report.siblings outcome = wave.members.filter fun id => id != outcome.id := by
  rw [← map_id_filter_wave_outcomes hbuild hwave, List.filter_map, List.filter_filter,
    Report.siblings, hreport]
  congr 2
  funext other
  exact Bool.and_comm _ _

theorem index_lt_of_transGen {first second left right : Nat}
    (hchain : TransGen (Graph.ofSystems systems tags).Leads first second)
    (hleft : plan.IsIn first left) (hright : plan.IsIn second right) : left < right := by
  induction hchain generalizing right with
  | single hleads => exact index_lt_of_leads hbuild hleads hleft hright
  | tail _ hleads ih =>
      obtain ⟨middle, -, rfl, -⟩ := Graph.fin_of_leads_assembled hleads
      obtain ⟨index, hin⟩ := exists_isIn hbuild middle.isLt
      exact Nat.lt_trans (ih hin) (index_lt_of_leads hbuild hleads hin hright)

/-! ## What a tick reports -/

variable (hids : (systems.map Descriptor.id).Nodup)
include hids

theorem nodup_map_id_outcomes {report : Report}
    (hreport : report.outcomes = plan.outcomes settled) :
    (report.outcomes.map Outcome.id).Nodup := by
  rw [hreport]
  exact (map_id_outcomes_perm hbuild settled).nodup_iff.mpr hids

omit hids in
theorem exists_id_eq_of_mem_outcomes {report : Report}
    (hreport : report.outcomes = plan.outcomes settled) {outcome : Outcome}
    (houtcome : outcome ∈ report.outcomes) :
    ∃ node : Fin systems.length, (systems.get node).id = outcome.id := by
  rw [hreport] at houtcome
  have hid := (map_id_outcomes_perm hbuild settled).mem_iff.mp (List.mem_map_of_mem houtcome)
  obtain ⟨descriptor, hdescriptor, hid⟩ := List.mem_map.mp hid
  obtain ⟨node, rfl⟩ := List.get_of_mem hdescriptor
  exact ⟨node, hid⟩

variable [Behaviour β σ] {pool : Pool} {context : TickContext} {halt : Nat → σ → Bool}
variable {workspace : Workspace σ} {report : Report}
variable (hreport : (plan.execute pool context halt workspace).1 = report)
include hreport

/-- Who was skipped waits, directly or through others, for one that failed. -/
theorem exists_status?_eq_failed {node : Fin systems.length} {id : SystemId}
    (hskipped : report.status? (systems.get node).id = some (.skipped id)) :
    ∃ source : Fin systems.length, (systems.get source).id = id ∧
      (∃ error, report.status? id = some (.failed error)) ∧
        TransGen (Graph.ofSystems systems tags).Leads source node := by
  subst hreport
  obtain ⟨answers, hanswers⟩ := exists_answers hbuild pool context workspace
  rw [status?_execute_eq_some_iff hbuild hanswers hids halt node Status.noConfusion] at hskipped
  obtain ⟨index, hin⟩ := exists_isIn hbuild node.isLt
  obtain ⟨source, rfl, ⟨error, hfailed⟩, hchain⟩ :=
    exists_failed_of_eq_skipped hbuild hin hskipped
  refine ⟨source, rfl, ⟨error, ?_⟩, hchain⟩
  exact (status?_execute_eq_some_iff hbuild hanswers hids halt source
    Status.noConfusion).mpr hfailed

/-- The failures list who was skipped, and nobody else. -/
theorem exists_failure_iff_isSkipped (id : SystemId) :
    (∃ failure ∈ report.failures, id ∈ failure.skipped) ↔
      ∃ outcome ∈ report.outcomes, outcome.id = id ∧ outcome.status.isSkipped = true := by
  obtain ⟨settled, houtcomes⟩ := exists_outcomes_eq hreport
  have hdistinct := nodup_map_id_outcomes hbuild hids houtcomes
  constructor
  · rintro ⟨failure, hfailure, hid⟩
    obtain ⟨source, -, -, -, hskipped⟩ := Report.mem_failures_iff.mp hfailure
    rw [hskipped, Report.mem_skippedBy_iff hdistinct,
      Report.status?_eq_some_iff hdistinct] at hid
    obtain ⟨outcome, houtcome, rfl, hstatus⟩ := hid
    exact ⟨outcome, houtcome, rfl, by rw [hstatus, Status.isSkipped]⟩
  · rintro ⟨outcome, houtcome, rfl, hskipped⟩
    cases hstatus : outcome.status with
    | completed | failed _ | cancelled =>
        rw [hstatus] at hskipped
        cases hskipped
    | skipped blockedBy =>
        obtain ⟨node, hnode⟩ := exists_id_eq_of_mem_outcomes hbuild houtcomes houtcome
        have hfound : report.status? outcome.id = some (.skipped blockedBy) :=
          (Report.status?_eq_some_iff hdistinct).mpr ⟨outcome, houtcome, rfl, hstatus⟩
        have hnamed := hfound
        rw [← hnode] at hnamed
        obtain ⟨source, -, ⟨error, hfailed⟩, -⟩ :=
          exists_status?_eq_failed hbuild hids hreport hnamed
        obtain ⟨cause, hcause, rfl, herror⟩ :=
          (Report.status?_eq_some_iff hdistinct).mp hfailed
        obtain ⟨failure, hfailure, -, hlist⟩ :=
          Report.exists_failure_of_status_eq hcause herror
        refine ⟨failure, hfailure, ?_⟩
        rw [hlist, Report.mem_skippedBy_iff hdistinct]
        exact hfound

/-- Who is listed as skipped is in a later wave than the failure, and waits for it. -/
theorem exists_transGen_of_mem_skipped {failure : Failure} (hfailure : failure ∈ report.failures)
    {id : SystemId} (hid : id ∈ failure.skipped) :
    ∃ source target : Fin systems.length, (systems.get source).id = failure.id ∧
      (systems.get target).id = id ∧
        TransGen (Graph.ofSystems systems tags).Leads source target ∧
          plan.RunsBefore failure.id id := by
  obtain ⟨settled, houtcomes⟩ := exists_outcomes_eq hreport
  have hdistinct := nodup_map_id_outcomes hbuild hids houtcomes
  obtain ⟨cause, -, hof, -, hskipped⟩ := Report.mem_failures_iff.mp hfailure
  rw [hskipped, ← hof.id_eq, Report.mem_skippedBy_iff hdistinct] at hid
  obtain ⟨outcome, houtcome, rfl, -⟩ := (Report.status?_eq_some_iff hdistinct).mp hid
  obtain ⟨target, htarget⟩ := exists_id_eq_of_mem_outcomes hbuild houtcomes houtcome
  rw [← htarget] at hid ⊢
  obtain ⟨source, hsource, -, hchain⟩ := exists_status?_eq_failed hbuild hids hreport hid
  obtain ⟨first, hfirst⟩ := exists_isIn hbuild source.isLt
  obtain ⟨second, hsecond⟩ := exists_isIn hbuild target.isLt
  rw [← hsource]
  exact ⟨source, target, rfl, rfl, hchain, first, second,
    waveOf?_of_isIn hbuild hids hfirst, waveOf?_of_isIn hbuild hids hsecond,
    index_lt_of_transGen hbuild hchain hfirst hsecond⟩

/-- If all waves were run and nothing failed, then all systems did their work. -/
theorem status?_eq_completed (hwhole : report.isCancelled = false)
    (hnone : ∀ id error, report.status? id ≠ some (.failed error))
    (node : Fin systems.length) :
    report.status? (systems.get node).id = some .completed := by
  obtain ⟨answers, hanswers⟩ := exists_answers hbuild pool context workspace
  have hlast : plan.waves.length ≤ plan.firstHalt pool context halt workspace := by
    rw [← hreport, execute_eq_upTo] at hwhole
    exact Nat.not_lt.mp (of_decide_eq_false hwhole)
  obtain ⟨index, hin⟩ := exists_isIn hbuild node.isLt
  obtain ⟨wave, hwave, -⟩ := id hin
  have hlt := Nat.lt_of_lt_of_le (List.getElem?_eq_some_iff.mp hwave).1 hlast
  have hstatus := status?_execute hbuild hanswers hids halt node
  rw [hreport, fatesAfter_eq_some hbuild hin hlt, Option.getD_some] at hstatus
  cases hdecision : plan.decision answers (plan.fatesAfter answers
      (plan.firstHalt pool context halt workspace)) node with
  | completed => rw [hstatus, hdecision]
  | failed error =>
      rw [hdecision] at hstatus
      exact absurd hstatus (hnone _ error)
  | skipped id =>
      rw [hdecision] at hstatus
      obtain ⟨-, -, ⟨error, hfailed⟩, -⟩ := exists_status?_eq_failed hbuild hids hreport hstatus
      exact absurd hfailed (hnone id error)
  | cancelled =>
      rw [decision] at hdecision
      split at hdecision
      · cases hdecision
      · exact absurd hdecision (statusOf_ne_cancelled _)

end Built

end Plan

namespace Scheduler

variable {β : Type u} {σ : Type v}

/-- What comes of a tick accounts for every system that failed and for every system that was
skipped: the failures are those of the systems that failed, wave by wave, and each lists the
rest of its wave and who was skipped for it, which are systems of later waves that wait for
it.  Every skip is listed exactly once.  The tick is refused just if there are failures, and
accepted as a whole only if every registered system did its work. -/
structure AccountsForFailures (scheduler : Scheduler β) (plan : Plan β)
    (result : Except TickError Report) (report : Report) : Prop where
  returned : reportOf? result = some report
  refused_iff : (∃ failure, result = .error (.execution failure)) ↔ report.failures ≠ []
  refused_with : ∀ failure, result = .error (.execution failure) →
    failure.failures = report.failures ∧ failure.report = report
  listed : List.Forall₂ Failure.IsOf report.failures report.failed
  in_wave_order : (report.failures.map Failure.wave).Pairwise (· ≤ ·)
  siblings : ∀ failure ∈ report.failures, ∃ wave, plan.waves[failure.wave]? = some wave ∧
    failure.id ∈ wave.members ∧
      failure.siblings = wave.members.filter fun id => id != failure.id
  disjoint : report.failures.Pairwise fun failure other =>
    failure.skipped.Disjoint other.skipped
  nodup : ∀ failure ∈ report.failures, failure.skipped.Nodup
  skipped_iff : ∀ id, (∃ failure ∈ report.failures, id ∈ failure.skipped) ↔
    ∃ outcome ∈ report.outcomes, outcome.id = id ∧ outcome.status.isSkipped = true
  later : ∀ failure ∈ report.failures, ∀ id ∈ failure.skipped,
    ∃ source target : Fin scheduler.table.toList.length,
      (scheduler.table.toList.get source).id = failure.id ∧
        (scheduler.table.toList.get target).id = id ∧
          TransGen (Graph.ofSystems scheduler.table.toList scheduler.tags).Leads source target ∧
            plan.RunsBefore failure.id id
  completed : ∀ accepted, result = .ok accepted → accepted.isCancelled = false →
    ∀ descriptor ∈ scheduler.table.toList, accepted.status? descriptor.id = some .completed

theorem resultOf_eq_ok_iff {report accepted : Report} :
    resultOf report = .ok accepted ↔ report.failures = [] ∧ accepted = report := by
  rw [resultOf, ExecutionFailure.ofReport, ← List.isEmpty_iff]
  split
  case isTrue hempty =>
    rw [Except.ok.injEq, and_iff_right hempty]
    exact eq_comm
  case isFalse hsome => simp [hsome]

theorem resultOf_eq_error_iff {report : Report} {error : TickError} :
    resultOf report = .error error ↔
      report.failures ≠ [] ∧ error = .execution ⟨report.failures, report⟩ := by
  rw [resultOf, ExecutionFailure.ofReport, ne_eq, ← List.isEmpty_iff]
  split
  case isTrue hempty => simp [hempty]
  case isFalse hsome =>
    rw [Except.error.injEq, and_iff_right hsome]
    exact eq_comm

/-- In every state that operations lead to, a tick whose plan can be made accounts for its
failures and its skips. -/
theorem accountsForFailures_of_reachable [Behaviour β σ] {config : Config} {pool : Pool}
    {scheduler : Scheduler β} (hreach : Reachable σ config pool scheduler)
    (context : TickContext) (halt : Nat → σ → Bool) (shared : σ)
    (hmade : ∀ dependency,
      (scheduler.runTick context halt shared).1 ≠ .error (.build dependency)) :
    ∃ report, scheduler.AccountsForFailures
      (scheduler.runTick context halt shared).2.1.plan
      (scheduler.runTick context halt shared).1 report := by
  cases hprepare : scheduler.prepare with
  | error dependency =>
      rw [runTick_of_prepare_eq_error hprepare] at hmade
      exact absurd rfl (hmade dependency)
  | ok prepared =>
      have hids : (scheduler.table.toList.map Descriptor.id).Nodup :=
        hreach.isFresh.table.distinct
      have hbuild := hreach.isFresh.build_of_prepare hprepare
      rw [tags_of_prepare hprepare] at hbuild
      rw [runTick_of_prepare_eq_ok hprepare]
      obtain ⟨report, hreport⟩ : ∃ report, (prepared.plan.execute prepared.pool context halt
          (⟨shared, prepared.profiler⟩ : Workspace σ)).1 = report := ⟨_, rfl⟩
      obtain ⟨settled, houtcomes⟩ := Plan.exists_outcomes_eq hreport
      have hdistinct := Plan.nodup_map_id_outcomes hbuild hids houtcomes
      simp only [hreport]
      exact ⟨report, {
        returned := reportOf?_resultOf report
        refused_iff := by simp [resultOf_eq_error_iff]
        refused_with := by
          intro failure hrefused
          obtain ⟨-, heq⟩ := resultOf_eq_error_iff.mp hrefused
          rw [TickError.execution.inj heq]
          exact ⟨rfl, rfl⟩
        listed := report.forall₂_failures
        in_wave_order := by
          apply Report.pairwise_wave_failures
          rw [houtcomes]
          exact Plan.pairwise_wave_outcomes prepared.plan settled
        siblings := by
          intro failure hfailure
          obtain ⟨outcome, houtcome, hof, hsiblings, -⟩ := Report.mem_failures_iff.mp hfailure
          obtain ⟨wave, hwave, hmember⟩ :=
            Plan.exists_wave_of_mem_outcomes hbuild (houtcomes ▸ houtcome)
          rw [hof.wave_eq, hof.id_eq, hsiblings, Plan.siblings_eq hbuild houtcomes hwave]
          exact ⟨wave, hwave, hmember, rfl⟩
        disjoint := Report.pairwise_disjoint_failures hdistinct
        nodup := by
          intro failure hfailure
          obtain ⟨outcome, -, -, -, hskipped⟩ := Report.mem_failures_iff.mp hfailure
          rw [hskipped]
          exact Report.nodup_skippedBy hdistinct _
        skipped_iff := Plan.exists_failure_iff_isSkipped hbuild hids hreport
        later := fun _ hfailure _ =>
          Plan.exists_transGen_of_mem_skipped hbuild hids hreport hfailure
        completed := by
          intro accepted haccepted hwhole descriptor hdescriptor
          obtain ⟨hempty, rfl⟩ := resultOf_eq_ok_iff.mp haccepted
          obtain ⟨node, rfl⟩ := List.get_of_mem hdescriptor
          refine Plan.status?_eq_completed hbuild hids hreport hwhole ?_ node
          exact Report.status?_ne_failed hdistinct hempty }⟩

/-- What comes of the first tick with a store of sevens, on the calling thread alone. -/
def firstTick (scheduler : Scheduler Plan.Chore) :
    Except TickError Report × Scheduler Plan.Chore × Store Nat :=
  scheduler.runTick ⟨1, 0⟩ (fun _ _ => false) fun _ => 7

/-- Two loaders fail.  One system waits for the first of them, and one for that system and for
the second loader; it is listed with the first. -/
theorem accountsForFailures_of_reachable_loaders :
    ∃ scheduler, Reachable (Store Nat) (Config.ofCores 4) .inline scheduler ∧
      (∀ dependency, scheduler.firstTick.1 ≠ .error (.build dependency)) ∧
      ∃ report, report.failures.map (fun failure => (failure.id, failure.skipped)) =
          [(⟨1⟩, [⟨2⟩, ⟨4⟩]), (⟨3⟩, [])] ∧
        scheduler.AccountsForFailures scheduler.firstTick.2.1.plan scheduler.firstTick.1
          report := by
  have hstart : Reachable (Store Nat) (Config.ofCores 4) .inline
      (withPool (Config.ofCores 4) .inline : Scheduler Plan.Chore) := .start
  have hload := hstart.register
    ((Descriptor.ofBody "load" (Plan.Chore.refuse "no disk")).writing ⟨1⟩) ⟨1⟩ rfl
  have hshow := hload.register
    (((Descriptor.ofBody "show" (Plan.Chore.copy ⟨1⟩ ⟨2⟩)).reading ⟨1⟩).writing ⟨2⟩) ⟨2⟩ rfl
  have hfetch := hshow.register
    ((Descriptor.ofBody "fetch" (Plan.Chore.refuse "no net")).writing ⟨3⟩) ⟨3⟩ rfl
  have hblend := hfetch.register
    ((((Descriptor.ofBody "blend" (.copy ⟨2⟩ ⟨4⟩)).reading ⟨2⟩).reading ⟨3⟩).writing ⟨4⟩) ⟨4⟩ rfl
  have hdraw := hblend.register
    (((Descriptor.ofBody "draw" (.copy ⟨5⟩ ⟨6⟩)).reading ⟨5⟩).writing ⟨6⟩) ⟨5⟩ rfl
  obtain ⟨scheduler, hfailures, hreach⟩ : ∃ scheduler : Scheduler Plan.Chore,
      (reportOf? scheduler.firstTick.1).map (fun report =>
          report.failures.map fun failure => (failure.id, failure.skipped)) =
        some [(⟨1⟩, [⟨2⟩, ⟨4⟩]), (⟨3⟩, [])] ∧
      Reachable (Store Nat) (Config.ofCores 4) .inline scheduler := by
    refine ⟨_, ?_, hdraw⟩
    decide +kernel
  have hmade : ∀ dependency, scheduler.firstTick.1 ≠ .error (.build dependency) := by
    intro dependency herror
    rw [herror] at hfailures
    cases hfailures
  obtain ⟨report, haccounts⟩ :=
    accountsForFailures_of_reachable hreach ⟨1, 0⟩ (fun _ _ => false) (fun _ => 7) hmade
  have hreport : reportOf? scheduler.firstTick.1 = some report := haccounts.returned
  rw [hreport] at hfailures
  exact ⟨scheduler, hreach, hmade, report, Option.some.inj hfailures, haccounts⟩

end Scheduler

end TickWaves
