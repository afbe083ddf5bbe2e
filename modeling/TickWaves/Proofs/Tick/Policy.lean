import TickWaves.Proofs.Tick.Journal
import TickWaves.Proofs.Tick.Outcomes
import TickWaves.Proofs.Tick.Serializability

/-!
# What a failure and a cancellation stop

A system looks only at the systems that it waits for directly, but all of them are in
earlier waves and decided, so by induction over the waves a failure stops exactly what can
be reached from the failed system (`exists_skipped_of_transGen`,
`exists_failed_of_eq_skipped`).  A cancellation stops the waves from the first one on
before which it is seen.  `KeepsPolicy` says both of a report and of the bodies run for it.
-/

namespace TickWaves

open Relation

universe u v

theorem Graph.IsScoped.mem_descendants {graph : Graph} (hscoped : graph.IsScoped)
    {node other : Nat} :
    other ∈ graph.descendants node ↔ TransGen graph.Leads node other := by
  rw [descendants, KeySet.mem_ofList,
    Reach.mem_reached_of_closed fun node => hscoped.successors_subset node,
    transGen_successors]

/-- The status of a system; of several with the identifier, of the first one. -/
def Report.status? (report : Report) (id : SystemId) : Option Status :=
  (report.outcome? id).map Outcome.status

namespace Plan

variable {β : Type u} {σ : Type v}

section Decided

variable {systems : List (Descriptor β)} {tags : TagOrder} {generation : Nat}
variable {plan : Plan β} {answers : Nat → TaskResult} {count : Nat}
variable (hbuild : build systems tags generation = .ok plan)
include hbuild

theorem fatesAfter_eq_none {node index : Nat} (hin : plan.IsIn node index)
    (hle : count ≤ index) : plan.fatesAfter answers count node = none := by
  induction count with
  | zero => rfl
  | succ count ih =>
      have hbefore := ih (Nat.le_of_succ_le hle)
      cases hwave : plan.waves[count]? with
      | none =>
          rw [fatesAfter, hwave]
          exact hbefore
      | some wave =>
          have hnot : node ∉ wave.nodes := by
            intro hnode
            have heq : count = index := IsIn.eq_index hbuild ⟨wave, hwave, hnode⟩ hin
            omega
          rw [fatesAfter_succ hwave, pass, hbefore, if_neg hnot, Option.none_or]

omit hbuild in
/-- What is decided stays. -/
theorem fatesAfter_of_le {node : Nat} {status : Status} {later : Nat} (hle : count ≤ later)
    (hfate : plan.fatesAfter answers count node = some status) :
    plan.fatesAfter answers later node = some status := by
  induction later, hle using Nat.le_induction with
  | base => exact hfate
  | succ later _ ih =>
      cases hwave : plan.waves[later]? with
      | none =>
          rw [fatesAfter, hwave]
          exact ih
      | some wave => rw [fatesAfter_succ hwave, pass, ih, Option.some_or]

/-- A member of a wave that was run is decided by what was decided before its wave. -/
theorem fatesAfter_eq_decision {node index : Nat} (hin : plan.IsIn node index)
    (hlt : index < count) :
    plan.fatesAfter answers count node =
      some (plan.decision answers (plan.fatesAfter answers index) node) := by
  apply fatesAfter_of_le hlt
  obtain ⟨wave, hwave, hnode⟩ := id hin
  rw [fatesAfter_succ hwave, pass, fatesAfter_eq_none hbuild hin (Nat.le_refl _),
    Option.none_or, if_pos hnode]

/-- Later waves change nothing for what decides about a member of a wave. -/
theorem blockerBy_fatesAfter {node index : Nat} (hin : plan.IsIn node index)
    (hlt : index < count) :
    plan.blockerBy (plan.fatesAfter answers count) node =
      plan.blockerBy (plan.fatesAfter answers index) node := by
  apply blockerBy_congr hbuild
  intro before hleads
  obtain ⟨earlier, hearlier⟩ : ∃ earlier, plan.IsIn before earlier := by
    obtain ⟨first, -, rfl, -⟩ := Graph.fin_of_leads_assembled hleads
    exact exists_isIn hbuild first.isLt
  have hlt' := index_lt_of_leads hbuild hleads hearlier hin
  rw [fatesAfter_eq_decision hbuild hearlier (Nat.lt_trans hlt' hlt),
    fatesAfter_eq_decision hbuild hearlier hlt']

theorem fatesAfter_eq_some {node index : Nat} (hin : plan.IsIn node index)
    (hlt : index < count) :
    plan.fatesAfter answers count node =
      some (plan.decision answers (plan.fatesAfter answers count) node) := by
  rw [fatesAfter_eq_decision hbuild hin hlt, decision, decision,
    blockerBy_fatesAfter hbuild hin hlt]

omit hbuild in
theorem statusOf_ne_skipped (result : TaskResult) (id : SystemId) :
    statusOf result ≠ .skipped id := by
  cases result <;> exact Status.noConfusion

omit hbuild in
theorem statusOf_ne_cancelled (result : TaskResult) : statusOf result ≠ .cancelled := by
  cases result <;> exact Status.noConfusion

/-- What blocks a system is one that it waits for, or what blocks that one. -/
theorem exists_leads_of_blockerBy_eq_some {fates : Nat → Option Status} {node : Nat}
    {id : SystemId} (hblocker : plan.blockerBy fates node = some id) :
    ∃ before, (Graph.ofSystems systems tags).Leads before node ∧
      (((∃ error, fates before = some (.failed error)) ∧
          systems[before]?.map Descriptor.id = some id) ∨
        fates before = some (.skipped id)) := by
  rw [blockerBy, getElem?_systems_of_build hbuild] at hblocker
  cases hsystem : systems[node]? with
  | none =>
      rw [hsystem] at hblocker
      cases hblocker
  | some descriptor =>
      rw [hsystem] at hblocker
      obtain ⟨before, hbefore, hfound⟩ := List.exists_of_findSome?_eq_some hblocker
      refine ⟨before, Graph.mem_predecessors.mp hbefore, ?_⟩
      cases hfate : fates before with
      | none => simp [hfate] at hfound
      | some status =>
          rw [hfate, getElem?_systems_of_build hbuild, Option.map_map] at hfound
          cases status with
          | completed => cases hfound
          | cancelled => cases hfound
          | failed error => exact Or.inl ⟨⟨error, rfl⟩, hfound⟩
          | skipped other => exact Or.inr (by rw [Option.some.inj hfound])

/-- A system that waits for one that failed or was skipped is blocked. -/
theorem exists_blockerBy_eq_some {fates : Nat → Option Status} {before node : Nat}
    (hleads : (Graph.ofSystems systems tags).Leads before node)
    (hfate : (∃ error, fates before = some (.failed error)) ∨
      ∃ id, fates before = some (.skipped id)) :
    ∃ id, plan.blockerBy fates node = some id := by
  obtain ⟨first, second, rfl, rfl⟩ := Graph.fin_of_leads_assembled hleads
  apply Option.ne_none_iff_exists'.mp
  intro hnone
  rw [blockerBy, getElem?_systems_of_build hbuild,
    List.getElem?_eq_getElem second.isLt] at hnone
  have hclear := List.findSome?_eq_none_iff.mp hnone first (Graph.mem_predecessors.mpr hleads)
  rcases hfate with ⟨error, hfailed⟩ | ⟨id, hskipped⟩
  · rw [hfailed, getElem?_systems_of_build hbuild,
      List.getElem?_eq_getElem first.isLt] at hclear
    cases hclear
  · rw [hskipped] at hclear
    cases hclear

/-- What failed stops everything that can be reached from it. -/
theorem exists_skipped_of_transGen {source node : Nat} {error : SystemError}
    (hfailed : plan.fatesAfter answers count source = some (.failed error))
    (hchain : TransGen (Graph.ofSystems systems tags).Leads source node) {index : Nat}
    (hin : plan.IsIn node index) (hlt : index < count) :
    ∃ id, plan.fatesAfter answers count node = some (.skipped id) := by
  induction hchain generalizing index with
  | single hleads =>
      obtain ⟨id, hblocker⟩ := exists_blockerBy_eq_some hbuild hleads (Or.inl ⟨error, hfailed⟩)
      exact ⟨id, by rw [fatesAfter_eq_some hbuild hin hlt, decision, hblocker]⟩
  | tail _ hleads ih =>
      obtain ⟨first, second, rfl, rfl⟩ := Graph.fin_of_leads_assembled hleads
      obtain ⟨earlier, hearlier⟩ := exists_isIn hbuild first.isLt
      have hlt' := index_lt_of_leads hbuild hleads hearlier hin
      have hskipped := ih hearlier (Nat.lt_trans hlt' hlt)
      obtain ⟨id, hblocker⟩ := exists_blockerBy_eq_some hbuild hleads (Or.inr hskipped)
      exact ⟨id, by rw [fatesAfter_eq_some hbuild hin hlt, decision, hblocker]⟩

/-- What was skipped can be reached from the failed system that it was skipped for. -/
theorem exists_failed_of_eq_skipped {node index : Nat} {id : SystemId}
    (hin : plan.IsIn node index)
    (hskipped : plan.fatesAfter answers count node = some (.skipped id)) :
    ∃ source : Fin systems.length, (systems.get source).id = id ∧
      (∃ error, plan.fatesAfter answers count source = some (.failed error)) ∧
        TransGen (Graph.ofSystems systems tags).Leads source node := by
  induction index using Nat.strong_induction_on generalizing node with
  | _ index ih =>
      have hlt : index < count := by
        by_contra hge
        rw [fatesAfter_eq_none hbuild hin (Nat.not_lt.mp hge)] at hskipped
        cases hskipped
      have hblocker : plan.blockerBy (plan.fatesAfter answers count) node = some id := by
        rw [fatesAfter_eq_some hbuild hin hlt, decision] at hskipped
        cases hcause : plan.blockerBy (plan.fatesAfter answers count) node with
        | none =>
            rw [hcause] at hskipped
            exact absurd (Option.some.inj hskipped) (statusOf_ne_skipped _ _)
        | some other =>
            rw [hcause] at hskipped
            rw [Status.skipped.inj (Option.some.inj hskipped)]
      obtain ⟨before, hleads, hcause⟩ := exists_leads_of_blockerBy_eq_some hbuild hblocker
      obtain ⟨first, -, rfl, -⟩ := Graph.fin_of_leads_assembled hleads
      rcases hcause with ⟨hfailed, hid⟩ | hbefore
      · rw [List.getElem?_eq_getElem first.isLt] at hid
        exact ⟨first, Option.some.inj hid, hfailed, .single hleads⟩
      · obtain ⟨earlier, hearlier⟩ := exists_isIn hbuild first.isLt
        obtain ⟨source, hid, hfailed, hchain⟩ :=
          ih earlier (index_lt_of_leads hbuild hleads hearlier hin) hearlier hbefore
        exact ⟨source, hid, hfailed, hchain.tail hleads⟩

end Decided

/-! ## What the report of a tick says -/

theorem some_getD_eq_some_iff {fate : Option Status} {status : Status}
    (hne : status ≠ .cancelled) :
    some (fate.getD .cancelled) = some status ↔ fate = some status := by
  cases fate with
  | none => simpa using hne.symm
  | some _ => simp

section Report

variable {systems : List (Descriptor β)} {tags : TagOrder} {generation : Nat}
variable {plan : Plan β}
variable (hbuild : build systems tags generation = .ok plan)
variable (hids : (systems.map Descriptor.id).Nodup)
include hbuild hids

/-- The report has the status that was decided, or says that nothing was. -/
theorem status?_outcomes {report : Report} {settled : List Settled}
    (hreport : report.outcomes = plan.outcomes settled) (node : Fin systems.length) :
    report.status? (systems.get node).id =
      some ((Settled.fates settled node).getD .cancelled) := by
  obtain ⟨index, wave, hwave, hnode⟩ := exists_isIn hbuild node.isLt
  have hsystem := getElem?_systems_of_build hbuild node
  rw [List.getElem?_eq_getElem node.isLt, Option.map_some] at hsystem
  obtain ⟨system, hsystem, hid⟩ : ∃ system, plan.systems[node.val]? = some system ∧
      system.id = (systems.get node).id := ⟨_, hsystem, rfl⟩
  have hmem : outcomeOf settled index node system ∈ report.outcomes := by
    rw [hreport, outcomes, List.mem_flatMap]
    refine ⟨(wave, index), List.mem_zipIdx_iff_getElem?.mpr hwave, ?_⟩
    refine List.mem_map.mpr ⟨(node.val, system), ?_, rfl⟩
    exact List.mem_filterMap.mpr ⟨node, hnode, by rw [hsystem, Option.map_some]⟩
  have hnodup : (report.outcomes.map Outcome.id).Nodup := by
    rw [hreport, (map_id_outcomes_perm hbuild settled).nodup_iff]
    exact hids
  rw [Report.status?, Report.outcome?, ← hid]
  have hfound := (find?_key_eq_some_iff hnodup).mpr ⟨hmem, rfl⟩
  change (report.outcomes.find? fun outcome => outcome.id == system.id) = some _ at hfound
  rw [hfound]
  rfl

end Report

/-- A tick that was halted before a wave, or after the last one, keeps the policy on
failures and cancellations: the members of the waves from there on are cancelled and not
run; of the members before, those that can be reached from a failed system are skipped and
not run, each for such a system, and all others are run once and end as their own bodies
do.  A pool that is closed is the exception: it runs nothing, and its units fail. -/
structure KeepsPolicy [Behaviour β σ] (plan : Plan β) (systems : List (Descriptor β))
    (graph : Graph) (pool : Pool) (context : TickContext) (halted : Nat) (report : Report)
    (journal : List (BodyRun β σ)) : Prop where
  wavesRun : report.wavesRun = halted
  isCancelled : report.isCancelled = true ↔ halted < plan.waves.length
  cancelled : ∀ (node : Fin systems.length) index,
    plan.waveOf? (systems.get node).id = some index → halted ≤ index →
      report.status? (systems.get node).id = some .cancelled ∧
        ∀ run ∈ journal, run.id ≠ (systems.get node).id
  skipped_iff : ∀ (node : Fin systems.length) index,
    plan.waveOf? (systems.get node).id = some index → index < halted →
      ((∃ id, report.status? (systems.get node).id = some (.skipped id)) ↔
        ∃ source : Fin systems.length,
          (∃ error, report.status? (systems.get source).id = some (.failed error)) ∧
            node.val ∈ graph.descendants source)
  blockedBy : ∀ (node : Fin systems.length) id,
    report.status? (systems.get node).id = some (.skipped id) →
      (∀ run ∈ journal, run.id ≠ (systems.get node).id) ∧
        ∃ source : Fin systems.length, (systems.get source).id = id ∧
          (∃ error, report.status? id = some (.failed error)) ∧
            TransGen graph.Leads source node
  own : pool ≠ .closed → ∀ (node : Fin systems.length) index,
    plan.waveOf? (systems.get node).id = some index → index < halted →
      (¬ ∃ id, report.status? (systems.get node).id = some (.skipped id)) →
        ∃ run ∈ journal, run.id = (systems.get node).id ∧ run.body = (systems.get node).body ∧
          (∃ lane shared, run.reply = Behaviour.run run.body context lane shared) ∧
            report.status? (systems.get node).id = some (statusOf run.reply.ending.result)
  once : pool ≠ .closed → (journal.map BodyRun.id).Nodup

section Tick

variable [Behaviour β σ] {systems : List (Descriptor β)} {tags : TagOrder} {generation : Nat}
variable {plan : Plan β}
variable (hbuild : build systems tags generation = .ok plan)
include hbuild

theorem map_fst_resultsAt (pool : Pool) (context : TickContext) (workspace : Workspace σ)
    (index : Nat) :
    (plan.resultsAt pool context workspace index).map Prod.fst =
      plan.runnableAt pool context workspace index := by
  apply map_fst_dispatch
  intro node hnode
  obtain ⟨wave, hwave, hnode⟩ := (mem_runnableAt.mp hnode).1
  exact node_lt_length_of_build hbuild (List.mem_of_getElem? hwave) hnode

/-- Every system has one result at most. -/
theorem exists_answers (pool : Pool) (context : TickContext) (workspace : Workspace σ) :
    ∃ answers : Nat → TaskResult, ∀ index,
      ∀ entry ∈ plan.resultsAt pool context workspace index, entry.2 = answers entry.1 := by
  have hkeys := map_fst_resultsAt hbuild pool context workspace
  have hin : ∀ index, ∀ entry ∈ plan.resultsAt pool context workspace index,
      plan.IsIn entry.1 index := by
    intro index entry hentry
    have hmem : entry.1 ∈ plan.runnableAt pool context workspace index := by
      rw [← hkeys]
      exact List.mem_map_of_mem hentry
    exact (mem_runnableAt.mp hmem).1
  have hone : ∀ node, ∃ answer, ∀ index,
      ∀ entry ∈ plan.resultsAt pool context workspace index,
        entry.1 = node → entry.2 = answer := by
    intro node
    by_cases hnode : ∃ index, ∃ entry ∈ plan.resultsAt pool context workspace index,
        entry.1 = node
    · obtain ⟨index, entry, hentry, rfl⟩ := hnode
      refine ⟨entry.2, fun other entry' hentry' heq => ?_⟩
      have hin' := hin other entry' hentry'
      rw [heq] at hin'
      obtain rfl : other = index := IsIn.eq_index hbuild hin' (hin index entry hentry)
      have hnodup : ((plan.resultsAt pool context workspace other).map Prod.fst).Nodup := by
        rw [hkeys]
        exact nodup_runnableAt hbuild pool context workspace other
      rw [List.inj_on_of_nodup_map hnodup hentry' hentry heq]
    · exact ⟨.ok (), fun index entry hentry heq => absurd ⟨index, entry, hentry, heq⟩ hnode⟩
  choose answers hanswers using hone
  exact ⟨answers, fun index entry hentry => hanswers entry.1 index entry hentry rfl⟩

section Answers

variable {pool : Pool} {context : TickContext} {workspace : Workspace σ}
variable {answers : Nat → TaskResult}
variable (hanswers : ∀ index, ∀ entry ∈ plan.resultsAt pool context workspace index,
  entry.2 = answers entry.1)
include hanswers

theorem fates_upTo_of_build (count : Nat) :
    Settled.fates (plan.upTo pool context workspace count).1 = plan.fatesAfter answers count :=
  fates_upTo (fun _ hwave _ => node_lt_length_of_build hbuild hwave)
    fun index _ => hanswers index

/-- A wave runs those of its members that nothing blocks, and they end as decided. -/
theorem mem_runnableAt_iff {node index count : Nat} (hin : plan.IsIn node index)
    (hlt : index < count) :
    node ∈ plan.runnableAt pool context workspace index ↔
      plan.blockerBy (plan.fatesAfter answers count) node = none := by
  rw [mem_runnableAt, blocker?_eq_blockerBy, fates_upTo_of_build hbuild hanswers,
    blockerBy_fatesAfter hbuild hin hlt, and_iff_right hin]

variable (hids : (systems.map Descriptor.id).Nodup)
include hids

theorem status?_execute (halt : Nat → σ → Bool) (node : Fin systems.length) :
    (plan.execute pool context halt workspace).1.status? (systems.get node).id =
      some ((plan.fatesAfter answers (plan.firstHalt pool context halt workspace) node).getD
        .cancelled) := by
  rw [execute_eq_upTo, ← fates_upTo_of_build hbuild hanswers]
  exact status?_outcomes hbuild hids rfl node

/-- A report says of a system what was decided. -/
theorem status?_execute_eq_some_iff (halt : Nat → σ → Bool) (node : Fin systems.length)
    {status : Status} (hne : status ≠ .cancelled) :
    (plan.execute pool context halt workspace).1.status? (systems.get node).id = some status ↔
      plan.fatesAfter answers (plan.firstHalt pool context halt workspace) node =
        some status := by
  rw [status?_execute hbuild hanswers hids halt]
  exact some_getD_eq_some_iff hne

omit hids in
/-- A system that nothing blocks is run, if the pool runs its units, and its own body gives
the result. -/
theorem exists_run_of_blockerBy_eq_none (hopen : pool ≠ .closed) {node : Fin systems.length}
    {index count : Nat} (hin : plan.IsIn node index) (hlt : index < count)
    (hblocker : plan.blockerBy (plan.fatesAfter answers count) node = none) :
    ∃ run ∈ plan.journalUpTo pool context workspace count,
      run.id = (systems.get node).id ∧ run.body = (systems.get node).body ∧
        (∃ lane shared, run.reply = Behaviour.run run.body context lane shared) ∧
          answers node = run.reply.ending.result := by
  obtain ⟨lane, hlane⟩ := Pool.exists_lane?_eq_some hopen
  have hrunnable := (mem_runnableAt_iff hbuild hanswers hin hlt).mpr hblocker
  rw [← map_fst_resultsAt hbuild] at hrunnable
  obtain ⟨entry, hentry, hnode⟩ := List.mem_map.mp hrunnable
  obtain ⟨run, hrun, ⟨⟨system, hsystem, hid, hbody⟩, hreply⟩, hresult⟩ :=
    exists_mem_journalUpTo hbuild hlane hlt hentry
  rw [hnode, getElem?_systems_of_build hbuild, List.getElem?_eq_getElem node.isLt] at hsystem
  obtain rfl := Option.some.inj hsystem
  refine ⟨run, hrun, hid, (Option.some.inj hbody).symm, hreply, ?_⟩
  rw [← hresult, hanswers index entry hentry, hnode]

end Answers

variable (hids : (systems.map Descriptor.id).Nodup)
include hids

theorem isIn_of_waveOf?_eq_some {node : Fin systems.length} {index : Nat}
    (hwave : plan.waveOf? (systems.get node).id = some index) : plan.IsIn node index := by
  obtain ⟨found, hin⟩ := exists_isIn hbuild node.isLt
  have hfound := waveOf?_of_isIn hbuild hids hin
  rwa [← Option.some.inj (hfound.symm.trans hwave)]

/-- A system whose wave does not run, or does not run it, is not run at all. -/
theorem id_ne_of_mem_journal {pool : Pool} {context : TickContext} {halt : Nat → σ → Bool}
    {workspace : Workspace σ} {node : Fin systems.length} {index : Nat}
    (hin : plan.IsIn node index)
    (hidle : index < plan.firstHalt pool context halt workspace →
      node.val ∉ plan.runnableAt pool context workspace index) :
    ∀ run ∈ plan.journal pool context halt workspace, run.id ≠ (systems.get node).id := by
  have hid : plan.systems[node.val]?.map PlannedSystem.id = some (systems.get node).id := by
    rw [getElem?_systems_of_build hbuild, List.getElem?_eq_getElem node.isLt]
    rfl
  rw [journal_eq_journalUpTo]
  exact (isTidy_of_build hbuild hids).id_ne_of_mem_journalUpTo hin hid hidle

/-- Every tick keeps the policy on failures and cancellations. -/
theorem keepsPolicy_of_build (pool : Pool) (context : TickContext) (halt : Nat → σ → Bool)
    (workspace : Workspace σ) :
    plan.KeepsPolicy systems (Graph.ofSystems systems tags) pool context
      (plan.firstHalt pool context halt workspace)
      (plan.execute pool context halt workspace).1
      (plan.journal pool context halt workspace) := by
  obtain ⟨answers, hanswers⟩ := exists_answers hbuild pool context workspace
  have hskipped : ∀ (node : Fin systems.length) id,
      (plan.execute pool context halt workspace).1.status? (systems.get node).id =
          some (.skipped id) ↔
        plan.fatesAfter answers (plan.firstHalt pool context halt workspace) node =
          some (.skipped id) :=
    fun node id => status?_execute_eq_some_iff hbuild hanswers hids halt node Status.noConfusion
  have hfailed : ∀ (node : Fin systems.length) error,
      (plan.execute pool context halt workspace).1.status? (systems.get node).id =
          some (.failed error) ↔
        plan.fatesAfter answers (plan.firstHalt pool context halt workspace) node =
          some (.failed error) :=
    fun node error =>
      status?_execute_eq_some_iff hbuild hanswers hids halt node Status.noConfusion
  constructor
  · rw [execute_eq_upTo]
  · rw [execute_eq_upTo]
    exact decide_eq_true_iff
  · intro node index hwave hle
    have hin := isIn_of_waveOf?_eq_some hbuild hids hwave
    constructor
    · rw [status?_execute hbuild hanswers hids halt, fatesAfter_eq_none hbuild hin hle,
        Option.getD_none]
    · exact id_ne_of_mem_journal hbuild hids hin fun hlt => absurd hlt (Nat.not_lt.mpr hle)
  · intro node index hwave hlt
    have hin := isIn_of_waveOf?_eq_some hbuild hids hwave
    simp only [hskipped, hfailed, (Graph.isScoped_ofSystems systems tags).mem_descendants]
    constructor
    · rintro ⟨id, hskip⟩
      obtain ⟨source, -, hfail, hchain⟩ := exists_failed_of_eq_skipped hbuild hin hskip
      exact ⟨source, hfail, hchain⟩
    · rintro ⟨source, ⟨error, hfail⟩, hchain⟩
      exact exists_skipped_of_transGen hbuild hfail hchain hin hlt
  · intro node id hreport
    have hskip := (hskipped node id).mp hreport
    obtain ⟨index, hin⟩ := exists_isIn hbuild node.isLt
    constructor
    · apply id_ne_of_mem_journal hbuild hids hin
      intro hlt hrunnable
      rw [mem_runnableAt_iff hbuild hanswers hin hlt] at hrunnable
      rw [fatesAfter_eq_some hbuild hin hlt, decision, hrunnable] at hskip
      exact statusOf_ne_skipped _ _ (Option.some.inj hskip)
    · obtain ⟨source, rfl, ⟨error, hfail⟩, hchain⟩ :=
        exists_failed_of_eq_skipped hbuild hin hskip
      exact ⟨source, rfl, ⟨error, (hfailed source error).mpr hfail⟩, hchain⟩
  · intro hopen node index hwave hlt hclear
    have hin := isIn_of_waveOf?_eq_some hbuild hids hwave
    let count := plan.firstHalt pool context halt workspace
    have hfate : plan.fatesAfter answers count node = _ := fatesAfter_eq_some hbuild hin hlt
    rw [decision] at hfate
    cases hblocker : plan.blockerBy (plan.fatesAfter answers count) node with
    | some id =>
        rw [hblocker] at hfate
        exact absurd ⟨id, (hskipped node id).mpr hfate⟩ hclear
    | none =>
        obtain ⟨run, hrun, hid, hbody, hreply, hresult⟩ :=
          exists_run_of_blockerBy_eq_none hbuild hanswers hopen hin hlt hblocker
        rw [hblocker, hresult] at hfate
        rw [← journal_eq_journalUpTo] at hrun
        refine ⟨run, hrun, hid, hbody, hreply, ?_⟩
        exact (status?_execute_eq_some_iff hbuild hanswers hids halt node
          (statusOf_ne_cancelled _)).mpr hfate
  · intro hopen
    obtain ⟨lane, hlane⟩ := Pool.exists_lane?_eq_some hopen
    rw [journal_eq_journalUpTo]
    exact nodup_map_id_journalUpTo hbuild hlane hids _

end Tick

def evenStore : Workspace (Store Nat) := ⟨fun _ => 7, Profiler.ofSize 4⟩

/-- A loader fails, so the one system that waits for it is skipped. -/
theorem keepsPolicy_of_build_chores :
    (chores.map Descriptor.id).Nodup ∧
      ∃ plan, build chores TagOrder.empty 1 = .ok plan ∧
        plan.KeepsPolicy chores (Graph.ofSystems chores TagOrder.empty) (.threads 2 "demo") ⟨1, 0⟩
          (plan.firstHalt (.threads 2 "demo") ⟨1, 0⟩ (fun _ _ => false) evenStore)
          (plan.execute (.threads 2 "demo") ⟨1, 0⟩ (fun _ _ => false) evenStore).1
          (plan.journal (.threads 2 "demo") ⟨1, 0⟩ (fun _ _ => false) evenStore) := by
  have hids : (chores.map Descriptor.id).Nodup := by decide
  have hsome : (build chores TagOrder.empty 1).isOk = true := by decide +kernel
  cases hbuild : build chores TagOrder.empty 1 with
  | error dependency =>
      rw [hbuild] at hsome
      cases hsome
  | ok plan => exact ⟨hids, plan, rfl, keepsPolicy_of_build hbuild hids _ _ _ _⟩

example : (build chores TagOrder.empty 1).toOption.map (fun plan =>
    (plan.execute .inline ⟨1, 0⟩ (fun _ _ => false) evenStore).1.outcomes.map
      fun outcome => (outcome.id, outcome.status)) =
    some [(⟨1⟩, .failed (.failed "no disk")), (⟨3⟩, .completed), (⟨2⟩, .skipped ⟨1⟩),
      (⟨4⟩, .completed)] := by
  decide +kernel

end Plan

end TickWaves
