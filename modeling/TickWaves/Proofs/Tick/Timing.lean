import TickWaves.Proofs.Tick.Answers
import TickWaves.Proofs.Tick.Policy
import TickWaves.Proofs.Time.Recording

/-!
# The run times in a report

The run time that a report gives for a system is read from the profiler, which keeps run
times across ticks.  For a system that was run, it is the time of that run; for one that was
skipped or cancelled, there is none (`IsTimed`).  But a system that failed without being run,
because the pool is closed or its body was released, is given the run time that the profiler
had before the tick.  So the run times of a report belong to its tick just if the profiler had
none for such a system (`timesRuns_of_build`).
-/

namespace TickWaves

universe u v

variable {β : Type u} {σ : Type v}

/-! ## The latest run times -/

theorem Reply.sample?_eq_ite {reply : Reply σ} :
    reply.sample? = if Plan.isPanic reply.ending.result then none else some reply.took := by
  rw [sample?]
  cases reply.ending <;> rfl

theorem Reply.isSome_sample?_iff {reply : Reply σ} :
    reply.sample?.isSome = true ↔ ∀ payload, reply.ending ≠ .panicked payload := by
  rw [sample?]
  cases hending : reply.ending with
  | done => simp
  | failed causes => simp
  | panicked payload => simp

theorem BodyRun.last?_recordIn (profiler : Profiler) (run : BodyRun β σ) (id : SystemId) :
    (recordIn profiler run).last? id =
      if id = run.id then run.reply.sample?.or (profiler.last? id) else profiler.last? id := by
  rw [recordIn]
  cases run.reply.sample? with
  | none => rw [Profiler.recordSome, Option.none_or, ite_self]
  | some sample => rw [Profiler.recordSome, Profiler.last?_record, Option.some_or]

/-- Runs of other systems leave the latest run time of a system alone. -/
theorem last?_foldl_recordIn_of_forall_ne {runs : List (BodyRun β σ)} {id : SystemId}
    (hne : ∀ run ∈ runs, run.id ≠ id) (profiler : Profiler) :
    (runs.foldl BodyRun.recordIn profiler).last? id = profiler.last? id := by
  induction runs generalizing profiler with
  | nil => rfl
  | cons run runs ih =>
      rw [List.foldl_cons, ih fun other hother => hne other (List.mem_cons_of_mem _ hother),
        BodyRun.last?_recordIn, if_neg (hne run List.mem_cons_self).symm]

/-- After some runs of different systems, the latest run time of each is that of its run. -/
theorem last?_foldl_recordIn {runs : List (BodyRun β σ)} (hnodup : (runs.map BodyRun.id).Nodup)
    {run : BodyRun β σ} (hrun : run ∈ runs) (profiler : Profiler) :
    (runs.foldl BodyRun.recordIn profiler).last? run.id =
      run.reply.sample?.or (profiler.last? run.id) := by
  induction runs generalizing profiler with
  | nil => cases hrun
  | cons first runs ih =>
      obtain ⟨hfirst, hrest⟩ := List.nodup_cons.mp hnodup
      rw [List.foldl_cons]
      rcases List.mem_cons.mp hrun with rfl | hlater
      · rw [last?_foldl_recordIn_of_forall_ne, BodyRun.last?_recordIn, if_pos rfl]
        exact fun other hother hid => hfirst (hid ▸ List.mem_map_of_mem hother)
      · have hne : run.id ≠ first.id := fun hid => hfirst (hid ▸ List.mem_map_of_mem hlater)
        rw [ih hrest hlater, BodyRun.last?_recordIn, if_neg hne]

/-! ## What is settled about a system -/

/-- The run time of a system is that of its run.  Without a run there is none, but for a
system that failed: it keeps the run time that the profiler had before. -/
structure IsTimed (pool : Pool) (removed : List SystemId) (before : Profiler)
    (runs : List (BodyRun β σ)) (id : SystemId) (status : Status) (elapsed? : Option Duration) :
    Prop where
  ran : ∀ run ∈ runs, run.id = id → elapsed? = run.reply.sample?
  idle : (∀ run ∈ runs, run.id ≠ id) → elapsed? = status.error?.bind fun _ => before.last? id
  cause : (∀ run ∈ runs, run.id ≠ id) → status.error?.isSome = true →
    pool = .closed ∨ id ∈ removed

namespace IsTimed

variable {pool : Pool} {removed : List SystemId} {before : Profiler}
variable {runs : List (BodyRun β σ)} {id : SystemId}

theorem of_mem {run : BodyRun β σ} (hrun : run ∈ runs) (hid : run.id = id)
    (hnodup : (runs.map BodyRun.id).Nodup) {status : Status} {elapsed? : Option Duration}
    (helapsed : elapsed? = run.reply.sample?) :
    IsTimed pool removed before runs id status elapsed? where
  ran other hother hid' := by
    rw [List.inj_on_of_nodup_map hnodup hother hrun (hid'.trans hid.symm)]
    exact helapsed
  idle hidle := absurd hid (hidle run hrun)
  cause hidle := absurd hid (hidle run hrun)

theorem of_forall_ne (hidle : ∀ run ∈ runs, run.id ≠ id) {status : Status}
    {elapsed? : Option Duration} (helapsed : elapsed? = status.error?.bind fun _ => before.last? id)
    (hcause : status.error?.isSome = true → pool = .closed ∨ id ∈ removed) :
    IsTimed pool removed before runs id status elapsed? where
  ran run hrun hid := absurd hid (hidle run hrun)
  idle _ := helapsed
  cause _ := hcause

theorem of_error?_eq_none (hidle : ∀ run ∈ runs, run.id ≠ id) {status : Status}
    (herror : status.error? = none) : IsTimed pool removed before runs id status none := by
  apply of_forall_ne hidle
  · rw [herror, Option.bind_none]
  · intro hfailed
    rw [herror] at hfailed
    cases hfailed

theorem append {status : Status} {elapsed? : Option Duration}
    (htimed : IsTimed pool removed before runs id status elapsed?) {later : List (BodyRun β σ)}
    (hlater : ∀ run ∈ later, run.id ≠ id) :
    IsTimed pool removed before (runs ++ later) id status elapsed? where
  ran run hrun hid := by
    rcases List.mem_append.mp hrun with hold | hnew
    · exact htimed.ran run hold hid
    · exact absurd hid (hlater run hnew)
  idle hidle := htimed.idle fun run hrun => hidle run (List.mem_append_left _ hrun)
  cause hidle := htimed.cause fun run hrun => hidle run (List.mem_append_left _ hrun)

end IsTimed

namespace Plan

section Waves

variable [Behaviour β σ] {plan : Plan β} {pool : Pool} {context : TickContext}
variable {removed : List SystemId} {workspace : Workspace σ}

/-- A system without a body was removed. -/
theorem IsTidy.mem_removed_of_hasBody_eq_false (htidy : plan.IsTidy removed) {node : Nat}
    {system : PlannedSystem β} (hsystem : plan.systems[node]? = some system)
    (hlost : plan.hasBody node = false) : system.id ∈ removed := by
  by_contra hkept
  obtain ⟨body, hbody⟩ := htidy.exists_body system (List.mem_of_getElem? hsystem) hkept
  rw [hasBody, hsystem, Option.any_some, hbody] at hlost
  cases hlost

/-- The fate of a system that has a result is timed. -/
theorem Answered.isTimed (htidy : plan.IsTidy removed) {journal runs : List (BodyRun β σ)}
    {entry : Nat × TaskResult} (hanswered : plan.Answered pool context runs entry)
    {system : PlannedSystem β} (hsystem : plan.systems[entry.1]? = some system)
    (hold : ∀ run ∈ journal, run.id ≠ system.id)
    (hown : ∀ run ∈ runs, ∃ node, plan.IsRunAt context node run)
    (hnodup : ((journal ++ runs).map BodyRun.id).Nodup) (before : Profiler) :
    IsTimed pool removed before (journal ++ runs) system.id (statusOf entry.2)
      (plan.settle ((journal ++ runs).foldl BodyRun.recordIn before) entry.1 entry.2).elapsed? := by
  have hid : plan.systems[entry.1]?.map PlannedSystem.id = some system.id := by
    rw [hsystem, Option.map_some]
  rw [settle, hsystem, Option.bind_some]
  dsimp only
  cases hanswered with
  | ran run hrun hat hresult =>
      have hrun' : run ∈ journal ++ runs := List.mem_append_right _ hrun
      have hid' : run.id = system.id := Option.some.inj (hat.map_id_eq.symm.trans hid)
      apply IsTimed.of_mem hrun' hid' hnodup
      -- The profiler is read once the whole wave is finished; all other runs are of other
      -- systems, so the sample found there is that of the run at hand.
      rw [← hid', last?_foldl_recordIn hnodup hrun', hresult, Reply.sample?_eq_ite]
      split <;> rfl
  | idle error hnot hcause hresult hcalm =>
      have hidle : ∀ run ∈ journal ++ runs, run.id ≠ system.id := by
        intro run hrun hsame
        rcases List.mem_append.mp hrun with hearlier | hlater
        · exact hold run hearlier hsame
        · obtain ⟨node, hat⟩ := hown run hlater
          rw [← hsame] at hid
          obtain rfl := node_eq_of_map_id_eq htidy.nodup_ids hat.map_id_eq hid
          exact hnot run hlater hat
      have hpanic : isPanic entry.2 = false := by
        rw [hresult]
        cases error with
        | failed causes => rfl
        | panicked message => exact absurd rfl (hcalm message)
        | disconnected => rfl
      apply IsTimed.of_forall_ne hidle
      · rw [hpanic, if_neg Bool.false_ne_true, last?_foldl_recordIn_of_forall_ne hidle, hresult]
        rfl
      · intro _
        exact hcause.imp id fun hlost => htidy.mem_removed_of_hasBody_eq_false hsystem hlost

/-- A wave settles its members: those that are blocked are skipped, and the others have the
run times that the profiler has once the wave is finished. -/
theorem settled_upTo_succ {count : Nat} {wave : Wave} (hwave : plan.waves[count]? = some wave) :
    (plan.upTo pool context workspace (count + 1)).1 =
      (plan.upTo pool context workspace count).1 ++
        wave.nodes.filterMap (plan.skip? (plan.upTo pool context workspace count).1) ++
        (plan.resultsAt pool context workspace count).map fun entry =>
          plan.settle ((plan.journalUpTo pool context workspace (count + 1)).foldl
            BodyRun.recordIn workspace.profiler) entry.1 entry.2 := by
  rw [← profiler_journalUpTo, upTo_succ hwave, resultsAt, runnableAt, hwave]
  rfl

/-- A wave leaves the run times of the systems of earlier waves as they are. -/
theorem IsTidy.isTimed_succ (htidy : plan.IsTidy removed) {count index node : Nat}
    (hin : plan.IsIn node index) (hlt : index < count) {system : PlannedSystem β}
    (hsystem : plan.systems[node]? = some system) {before : Profiler} {status : Status}
    {elapsed? : Option Duration}
    (htimed : IsTimed pool removed before (plan.journalUpTo pool context workspace count)
      system.id status elapsed?) :
    IsTimed pool removed before (plan.journalUpTo pool context workspace (count + 1))
      system.id status elapsed? := by
  obtain ⟨runs, hruns, -, hown, -⟩ := exists_answered_resultsAt htidy pool context workspace count
  rw [hruns]
  apply htimed.append
  intro run hrun hid
  obtain ⟨other, hother, hat⟩ := hown run hrun
  have hsame : plan.systems[node]?.map PlannedSystem.id = some run.id := by
    rw [hsystem, Option.map_some, hid]
  rw [node_eq_of_map_id_eq htidy.nodup_ids hsame hat.map_id_eq] at hin
  exact Nat.ne_of_lt hlt (htidy.eq_index hin (mem_runnableAt.mp hother).1)

/-- A wave times the systems that it has results of. -/
theorem IsTidy.isTimed_settle (htidy : plan.IsTidy removed) {count : Nat}
    {answer : Nat × TaskResult} (hanswer : answer ∈ plan.resultsAt pool context workspace count)
    {system : PlannedSystem β} (hsystem : plan.systems[answer.1]? = some system)
    (hin : plan.IsIn answer.1 count) :
    IsTimed pool removed workspace.profiler
      (plan.journalUpTo pool context workspace (count + 1)) system.id (statusOf answer.2)
      (plan.settle ((plan.journalUpTo pool context workspace (count + 1)).foldl
        BodyRun.recordIn workspace.profiler) answer.1 answer.2).elapsed? := by
  obtain ⟨runs, hruns, -, hown, hanswered⟩ :=
    exists_answered_resultsAt htidy pool context workspace count
  have hnodup := htidy.nodup_map_id_journalUpTo pool context workspace (count + 1)
  rw [hruns] at hnodup ⊢
  apply (hanswered answer hanswer).isTimed htidy hsystem _ _ hnodup
  · exact htidy.id_ne_of_mem_journalUpTo hin (by rw [hsystem, Option.map_some])
      fun hlt => absurd hlt (Nat.lt_irrefl count)
  · exact fun run hrun => (hown run hrun).imp fun _ => And.right

/-- What is settled about the waves that ran is timed. -/
theorem IsTidy.isTimed_upTo (htidy : plan.IsTidy removed) (count : Nat) :
    ∀ entry ∈ (plan.upTo pool context workspace count).1, ∃ index < count,
      plan.IsIn entry.node index ∧ ∀ system, plan.systems[entry.node]? = some system →
        IsTimed pool removed workspace.profiler (plan.journalUpTo pool context workspace count)
          system.id entry.status entry.elapsed? := by
  induction count with
  | zero => exact fun _ hentry => absurd hentry List.not_mem_nil
  | succ count ih =>
      have hkept : ∀ entry ∈ (plan.upTo pool context workspace count).1,
          ∃ index < count + 1, plan.IsIn entry.node index ∧
            ∀ system, plan.systems[entry.node]? = some system →
              IsTimed pool removed workspace.profiler
                (plan.journalUpTo pool context workspace (count + 1)) system.id entry.status
                  entry.elapsed? := by
        intro entry hentry
        obtain ⟨index, hlt, hin, htimed⟩ := ih entry hentry
        exact ⟨index, Nat.lt_succ_of_lt hlt, hin, fun system hsystem =>
          htidy.isTimed_succ hin hlt hsystem (htimed system hsystem)⟩
      cases hwave : plan.waves[count]? with
      | none =>
          rw [upTo, hwave]
          exact hkept
      | some wave =>
          rw [settled_upTo_succ hwave]
          intro entry hentry
          rw [List.mem_append, List.mem_append, or_assoc] at hentry
          rcases hentry with hold | hskipped | hran
          · exact hkept entry hold
          · obtain ⟨node, hnode, hskip⟩ := List.mem_filterMap.mp hskipped
            obtain ⟨id, hblocker, rfl⟩ := Option.map_eq_some_iff.mp hskip
            have hin : plan.IsIn node count := ⟨wave, hwave, hnode⟩
            refine ⟨count, Nat.lt_succ_self _, hin, fun system hsystem => ?_⟩
            apply IsTimed.of_error?_eq_none _ rfl
            apply htidy.id_ne_of_mem_journalUpTo hin (by rw [hsystem, Option.map_some])
            intro _ hrunnable
            rw [(mem_runnableAt.mp hrunnable).2] at hblocker
            cases hblocker
          · obtain ⟨answer, hanswer, rfl⟩ := List.mem_map.mp hran
            have hnode := List.mem_map_of_mem (f := Prod.fst) hanswer
            rw [htidy.map_fst_resultsAt] at hnode
            have hin := (mem_runnableAt.mp hnode).1
            exact ⟨count, Nat.lt_succ_self _, hin, fun system hsystem =>
              htidy.isTimed_settle hanswer hsystem hin⟩

/-- The members of the waves that ran are settled. -/
theorem IsTidy.exists_settled (htidy : plan.IsTidy removed) (pool : Pool)
    (context : TickContext) (workspace : Workspace σ) {node index count : Nat}
    (hin : plan.IsIn node index) (hlt : index < count) :
    ∃ entry ∈ (plan.upTo pool context workspace count).1, entry.node = node := by
  induction count with
  | zero => exact absurd hlt (Nat.not_lt_zero _)
  | succ count ih =>
      rcases Nat.lt_succ_iff_lt_or_eq.mp hlt with hearlier | rfl
      · obtain ⟨entry, hentry, hnode⟩ := ih hearlier
        refine ⟨entry, ?_, hnode⟩
        cases hwave : plan.waves[count]? with
        | none => rwa [upTo, hwave]
        | some wave =>
            rw [settled_upTo_succ hwave]
            exact List.mem_append_left _ (List.mem_append_left _ hentry)
      · obtain ⟨wave, hwave, hnode⟩ := id hin
        rw [settled_upTo_succ hwave]
        cases hblocker : plan.blocker? (plan.upTo pool context workspace index).1 node with
        | some id =>
            refine ⟨⟨node, .skipped id, none⟩, ?_, rfl⟩
            apply List.mem_append_left _ (List.mem_append_right _ _)
            exact List.mem_filterMap.mpr ⟨node, hnode, by rw [skip?, hblocker, Option.map_some]⟩
        | none =>
            have hrunnable := mem_runnableAt.mpr ⟨hin, hblocker⟩
            rw [← htidy.map_fst_resultsAt] at hrunnable
            obtain ⟨answer, hanswer, rfl⟩ := List.mem_map.mp hrunnable
            exact ⟨_, List.mem_append_right _ (List.mem_map_of_mem hanswer), rfl⟩

/-- An outcome is timed if all that is settled is. -/
theorem IsTidy.isTimed_of_mem_outcomes (htidy : plan.IsTidy removed) {count : Nat}
    {outcome : Outcome}
    (houtcome : outcome ∈ plan.outcomes (plan.upTo pool context workspace count).1) :
    IsTimed pool removed workspace.profiler (plan.journalUpTo pool context workspace count)
      outcome.id outcome.status outcome.elapsed? := by
  obtain ⟨⟨wave, index⟩, hwave, hmem⟩ := List.mem_flatMap.mp houtcome
  obtain ⟨⟨node, system⟩, hentry, rfl⟩ := List.mem_map.mp hmem
  have hsystem := getElem?_of_mem_systemsAt hentry
  have hnode : node ∈ wave.nodes := by
    obtain ⟨other, hother, hfound⟩ := List.mem_filterMap.mp hentry
    obtain ⟨found, -, heq⟩ := Option.map_eq_some_iff.mp hfound
    rwa [← (Prod.mk.inj heq).1]
  have hin : plan.IsIn node index := ⟨wave, List.mem_zipIdx_iff_getElem?.mp hwave, hnode⟩
  dsimp only [outcomeOf]
  cases hfound : Settled.find? (plan.upTo pool context workspace count).1 node with
  | none =>
      -- What is not settled is in a wave that did not run, so it was not run either.
      apply IsTimed.of_error?_eq_none _ rfl
      apply htidy.id_ne_of_mem_journalUpTo hin (by rw [hsystem, Option.map_some])
      intro hlt
      obtain ⟨entry, hsettled, rfl⟩ := htidy.exists_settled pool context workspace hin hlt
      have hnone := List.find?_eq_none.mp hfound entry hsettled
      exact absurd (beq_self_eq_true _) hnone
  | some entry =>
      obtain ⟨-, -, -, htimed⟩ :=
        htidy.isTimed_upTo count entry (List.mem_of_find?_eq_some hfound)
      have htest := List.find?_some hfound
      have hsame : entry.node = node := beq_iff_eq.mp htest
      exact htimed system (by rw [hsame, hsystem])

end Waves

end Plan

/-! ## What the report of a tick says -/

/-- The run times of a report belong to its tick: a system has one just if its body was run and
did not panic. -/
def Report.IsTimely (report : Report) (journal : List (BodyRun β σ)) : Prop :=
  ∀ outcome ∈ report.outcomes, outcome.elapsed?.isSome = true ↔
    ∃ run ∈ journal, run.id = outcome.id ∧ ∀ payload, run.reply.ending ≠ .panicked payload

/-- A report has the run times of the runs of its tick, and for systems that failed without a
run what the profiler had before.  This is timely just if the profiler had nothing for them. -/
structure TimesRuns (pool : Pool) (removed : List SystemId) (before : Profiler) (report : Report)
    (journal : List (BodyRun β σ)) : Prop where
  once : (journal.map BodyRun.id).Nodup
  timed : ∀ outcome ∈ report.outcomes,
    IsTimed pool removed before journal outcome.id outcome.status outcome.elapsed?
  timely_iff : report.IsTimely journal ↔ ∀ outcome ∈ report.outcomes,
    (∀ run ∈ journal, run.id ≠ outcome.id) → outcome.status.error?.isSome = true →
      before.last? outcome.id = none

section Report

variable {pool : Pool} {removed : List SystemId} {before : Profiler} {report : Report}
variable {journal : List (BodyRun β σ)}
variable (htimed : ∀ outcome ∈ report.outcomes,
  IsTimed pool removed before journal outcome.id outcome.status outcome.elapsed?)
include htimed

theorem isTimely_iff_of_isTimed :
    report.IsTimely journal ↔ ∀ outcome ∈ report.outcomes,
      (∀ run ∈ journal, run.id ≠ outcome.id) → outcome.status.error?.isSome = true →
        before.last? outcome.id = none := by
  constructor
  · intro htimely outcome houtcome hidle hfailed
    obtain ⟨error, herror⟩ := Option.isSome_iff_exists.mp hfailed
    have helapsed := (htimed outcome houtcome).idle hidle
    rw [herror, Option.bind_some] at helapsed
    rw [← helapsed, Option.eq_none_iff_forall_ne_some]
    intro sample hsample
    have hsome : outcome.elapsed?.isSome = true := by rw [hsample, Option.isSome_some]
    obtain ⟨run, hrun, hid, -⟩ := (htimely outcome houtcome).mp hsome
    exact hidle run hrun hid
  · intro hnone outcome houtcome
    by_cases hran : ∃ run ∈ journal, run.id = outcome.id
    · obtain ⟨run, hrun, hid⟩ := hran
      constructor
      · intro hsome
        rw [(htimed outcome houtcome).ran run hrun hid] at hsome
        exact ⟨run, hrun, hid, Reply.isSome_sample?_iff.mp hsome⟩
      · rintro ⟨other, hother, hid', hcalm⟩
        rw [(htimed outcome houtcome).ran other hother hid']
        exact Reply.isSome_sample?_iff.mpr hcalm
    · have hidle : ∀ run ∈ journal, run.id ≠ outcome.id := fun run hrun hid =>
        hran ⟨run, hrun, hid⟩
      have helapsed : outcome.elapsed? = none := by
        rw [(htimed outcome houtcome).idle hidle]
        cases herror : outcome.status.error? with
        | none => rfl
        | some error => exact hnone outcome houtcome hidle (by rw [herror, Option.isSome_some])
      rw [helapsed]
      exact ⟨fun hsome => absurd hsome Bool.false_ne_true,
        fun ⟨run, hrun, hid, _⟩ => absurd hid (hidle run hrun)⟩

end Report

namespace Plan

variable [Behaviour β σ]

theorem IsTidy.isTimed_execute {plan : Plan β} {removed : List SystemId}
    (htidy : plan.IsTidy removed) (pool : Pool) (context : TickContext) (halt : Nat → σ → Bool)
    (workspace : Workspace σ) :
    ∀ outcome ∈ (plan.execute pool context halt workspace).1.outcomes,
      IsTimed pool removed workspace.profiler (plan.journal pool context halt workspace)
        outcome.id outcome.status outcome.elapsed? := by
  rw [execute_eq_upTo, journal_eq_journalUpTo]
  exact fun outcome houtcome => htidy.isTimed_of_mem_outcomes houtcome

/-- Every tick times the runs of its bodies, whatever the pool, the bodies that the plan has
lost and the run times of earlier ticks. -/
theorem timesRuns_of_build {systems : List (Descriptor β)} {tags : TagOrder} {generation : Nat}
    {plan : Plan β} (hbuild : build systems tags generation = .ok plan)
    (hids : (systems.map Descriptor.id).Nodup) (removed : List SystemId) (pool : Pool)
    (context : TickContext) (halt : Nat → σ → Bool) (workspace : Workspace σ) :
    TimesRuns pool removed workspace.profiler
      ((plan.without removed).execute pool context halt workspace).1
      ((plan.without removed).journal pool context halt workspace) := by
  have htidy := isTidy_without_of_build hbuild hids removed
  have htimed := htidy.isTimed_execute pool context halt workspace
  refine ⟨?_, htimed, isTimely_iff_of_isTimed htimed⟩
  rw [journal_eq_journalUpTo]
  exact htidy.nodup_map_id_journalUpTo pool context workspace _

/-- With a pool that runs its units, and all bodies there, the run times belong to the tick. -/
theorem isTimely_execute {systems : List (Descriptor β)} {tags : TagOrder} {generation : Nat}
    {plan : Plan β} (hbuild : build systems tags generation = .ok plan)
    (hids : (systems.map Descriptor.id).Nodup) {pool : Pool} (hopen : pool ≠ .closed)
    (context : TickContext) (halt : Nat → σ → Bool) (workspace : Workspace σ) :
    (plan.execute pool context halt workspace).1.IsTimely
      (plan.journal pool context halt workspace) := by
  have htimed := (isTidy_of_build hbuild hids).isTimed_execute pool context halt workspace
  rw [isTimely_iff_of_isTimed htimed]
  intro outcome houtcome hidle hfailed
  rcases (htimed outcome houtcome).cause hidle hfailed with hclosed | hremoved
  · exact absurd hclosed hopen
  · cases hremoved

def twins : List (Descriptor Chore) :=
  [(((Descriptor.ofBody "left" (.copy ⟨1⟩ ⟨2⟩)).withId ⟨1⟩).reading ⟨1⟩).writing ⟨2⟩,
    (((Descriptor.ofBody "right" (.copy ⟨3⟩ ⟨4⟩)).withId ⟨2⟩).reading ⟨3⟩).writing ⟨4⟩]

theorem timesRuns_of_build_twins :
    (twins.map Descriptor.id).Nodup ∧ ∃ plan, build twins TagOrder.empty 2 = .ok plan ∧
      TimesRuns .closed [⟨2⟩] evenStore.profiler
        ((plan.without [⟨2⟩]).execute .closed ⟨2, 0⟩ (fun _ _ => false) evenStore).1
        ((plan.without [⟨2⟩]).journal .closed ⟨2, 0⟩ (fun _ _ => false) evenStore) := by
  have hids : (twins.map Descriptor.id).Nodup := by decide
  have hsome : (build twins TagOrder.empty 2).isOk = true := by decide +kernel
  cases hbuild : build twins TagOrder.empty 2 with
  | error dependency =>
      rw [hbuild] at hsome
      cases hsome
  | ok plan => exact ⟨hids, plan, rfl, timesRuns_of_build hbuild hids _ _ _ _ _⟩

/-- The first of the twins is run in the first tick, alone in its wave.  In the second tick the
two go to the pool, which is closed, and the report has the run time of the first tick. -/
theorem not_isTimely_twins :
    (twins.map Descriptor.id).Nodup ∧
      ∃ alone both, build (twins.take 1) TagOrder.empty 1 = .ok alone ∧
        build twins TagOrder.empty 2 = .ok both ∧
          let used := (alone.execute .closed ⟨1, 0⟩ (fun _ _ => false) evenStore).2
          ¬ (both.execute .closed ⟨2, 0⟩ (fun _ _ => false) used).1.IsTimely
            (both.journal .closed ⟨2, 0⟩ (fun _ _ => false) used) := by
  have hruns : ((build (twins.take 1) TagOrder.empty 1).toOption.bind fun alone =>
      (build twins TagOrder.empty 2).toOption.map fun both =>
        let used := (alone.execute .closed ⟨1, 0⟩ (fun _ _ => false) evenStore).2
        ((both.execute .closed ⟨2, 0⟩ (fun _ _ => false) used).1.outcomes.map Outcome.elapsed?,
          (both.journal .closed ⟨2, 0⟩ (fun _ _ => false) used).map BodyRun.id)) =
      some ([some .zero, none], []) := by
    decide +kernel
  have hids : (twins.map Descriptor.id).Nodup := by decide
  cases halone : build (twins.take 1) TagOrder.empty 1 with
  | error dependency =>
      rw [halone] at hruns
      cases hruns
  | ok alone =>
      cases hboth : build twins TagOrder.empty 2 with
      | error dependency =>
          rw [halone, hboth] at hruns
          cases hruns
      | ok both =>
          rw [halone, hboth] at hruns
          obtain ⟨helapsed, hjournal⟩ := Prod.mk.inj (Option.some.inj hruns)
          refine ⟨hids, alone, both, rfl, rfl, fun htimely => ?_⟩
          obtain ⟨outcome, houtcome, hsample⟩ := List.mem_map.mp
            (helapsed ▸ List.mem_cons_self : some Duration.zero ∈ _)
          obtain ⟨run, hrun, -⟩ := (htimely outcome houtcome).mp (by rw [hsample]; rfl)
          rw [List.map_eq_nil_iff.mp hjournal] at hrun
          cases hrun

end Plan

end TickWaves
