import TickWaves.Proofs.Scheduler.Forgetting
import TickWaves.Proofs.Scheduler.Freshness
import TickWaves.Proofs.Tick.Journal

/-!
# Nothing outlives its registration

A scheduler keeps what belongs to a system in three places: the descriptor in the table, the
body in the plan and the run times in the profiler.  They change at different times, and
an identifier can be used again.  Still, in every state that operations lead to, a body in
the plan is that of the descriptor that is registered now, and the run times under an
identifier are those of runs since its registration (`holdsNoRemains_of_reachable`).  A
history of the scheduler tells which runs these are (`Recounts`).
-/

namespace TickWaves

universe u v

section Stores

variable {β : Type u} {σ : Type v}

/-- The plan holds a body for an identifier. -/
def Plan.Holds (plan : Plan β) (id : SystemId) (body : β) : Prop :=
  ∃ system ∈ plan.systems, system.id = id ∧ system.body? = some body

/-- What was removed is no longer held, and nothing else is held instead. -/
theorem Plan.holds_without {plan : Plan β} {removed : List SystemId} {id : SystemId} {body : β}
    (hholds : (plan.without removed).Holds id body) : plan.Holds id body ∧ id ∉ removed := by
  obtain ⟨system, hsystem, rfl, hbody⟩ := hholds
  obtain ⟨whole, hwhole, rfl⟩ := List.mem_map.mp hsystem
  rw [PlannedSystem.body?_without] at hbody
  rw [PlannedSystem.id_without]
  split at hbody
  case isTrue => cases hbody
  case isFalse hkept => exact ⟨⟨whole, hwhole, rfl, hbody⟩, hkept⟩

/-- A tick runs bodies that the plan holds. -/
theorem Plan.holds_of_mem_journal [Behaviour β σ] {plan : Plan β} {pool : Pool}
    {context : TickContext} {halt : Nat → σ → Bool} {workspace : Workspace σ}
    {run : BodyRun β σ} (hrun : run ∈ plan.journal pool context halt workspace) :
    plan.Holds run.id run.body := by
  rw [journal_eq_journalUpTo] at hrun
  obtain ⟨-, -, node, -, ⟨system, hsystem, hid, hbody⟩, -⟩ := exists_of_mem_journalUpTo hrun
  exact ⟨system, List.mem_of_getElem? hsystem, hid.symm, hbody⟩

namespace Profiler

def Keeps (profiler : Profiler) (id : SystemId) (sample : Duration) : Prop :=
  ∃ window, (id, window) ∈ profiler.windows ∧ sample ∈ window.last :: window.samples

theorem keeps_record {profiler : Profiler} {id other : SystemId} {sample kept : Duration}
    (hkeeps : (profiler.record id sample).Keeps other kept) :
    profiler.Keeps other kept ∨ other = id ∧ kept = sample := by
  obtain ⟨window, hwindow, hkept⟩ := hkeeps
  rw [record] at hwindow
  split at hwindow
  · rcases List.mem_append.mp hwindow with hold | hnew
    · exact Or.inl ⟨window, hold, hkept⟩
    · obtain ⟨rfl, rfl⟩ := Prod.mk.inj (List.mem_singleton.mp hnew)
      rcases List.mem_cons.mp hkept with rfl | hmem
      · exact Or.inr ⟨rfl, rfl⟩
      · exact Or.inr ⟨rfl, List.eq_of_mem_replicate hmem⟩
  · obtain ⟨⟨entryId, entry⟩, hentry, heq⟩ := List.mem_map.mp hwindow
    split at heq
    · rename_i hsame
      obtain ⟨rfl, rfl⟩ := Prod.mk.inj heq
      rcases List.mem_cons.mp hkept with rfl | hmem
      · exact Or.inr ⟨hsame, rfl⟩
      · rcases List.mem_or_eq_of_mem_set hmem with hold | rfl
        · exact Or.inl ⟨entry, hentry, List.mem_cons_of_mem _ hold⟩
        · exact Or.inr ⟨hsame, rfl⟩
    · obtain ⟨rfl, rfl⟩ := Prod.mk.inj heq
      exact Or.inl ⟨_, hentry, hkept⟩

/-- No run time is kept for what was removed, and no other is kept instead. -/
theorem keeps_without {profiler : Profiler} {removed : List SystemId} {id : SystemId}
    {kept : Duration} (hkeeps : (profiler.without removed).Keeps id kept) :
    profiler.Keeps id kept ∧ id ∉ removed := by
  obtain ⟨window, hwindow, hkept⟩ := hkeeps
  obtain ⟨hmem, hnot⟩ := List.mem_filter.mp hwindow
  exact ⟨⟨window, hmem, hkept⟩, of_decide_eq_true hnot⟩

/-- The run times that are kept after some runs were kept before or are those of the runs. -/
theorem keeps_foldl_recordIn {runs : List (BodyRun β σ)} {profiler : Profiler} {id : SystemId}
    {kept : Duration} (hkeeps : (runs.foldl BodyRun.recordIn profiler).Keeps id kept) :
    profiler.Keeps id kept ∨ ∃ run ∈ runs, run.id = id ∧ run.reply.sample? = some kept := by
  induction runs generalizing profiler with
  | nil => exact Or.inl hkeeps
  | cons run runs ih =>
      rcases ih hkeeps with hfirst | ⟨other, hother, hid, hsample⟩
      · rw [BodyRun.recordIn] at hfirst
        cases hsample : run.reply.sample? with
        | none =>
            rw [hsample] at hfirst
            exact Or.inl hfirst
        | some sample =>
            rw [hsample] at hfirst
            rcases keeps_record hfirst with hold | ⟨rfl, rfl⟩
            · exact Or.inl hold
            · exact Or.inr ⟨run, List.mem_cons_self, rfl, hsample⟩
      · exact Or.inr ⟨other, List.mem_cons_of_mem _ hother, hid, hsample⟩

end Profiler

end Stores

namespace Scheduler

variable {β : Type u} {σ : Type v}

/-- What happens to the systems of a scheduler. -/
inductive Occurrence (β : Type u)
  | registered (id : SystemId) (body : β)
  | removed (id : SystemId)
  /-- A body was run, and the time that it took was kept. -/
  | ran (id : SystemId) (body : β) (took : Duration)

def Occurrence.changed? : Occurrence β → Option SystemId
  | registered id _ => some id
  | removed id => some id
  | ran _ _ _ => none

/-- A body is registered under an identifier, and this is what happened since then. -/
def IsSince (history : List (Occurrence β)) (id : SystemId) (body : β)
    (later : List (Occurrence β)) : Prop :=
  (∃ earlier, history = earlier ++ .registered id body :: later) ∧
    ∀ occurrence ∈ later, occurrence.changed? ≠ some id

theorem IsSince.append {history later more : List (Occurrence β)} {id : SystemId} {body : β}
    (hsince : IsSince history id body later)
    (hmore : ∀ occurrence ∈ more, occurrence.changed? ≠ some id) :
    IsSince (history ++ more) id body (later ++ more) := by
  obtain ⟨⟨earlier, rfl⟩, hlater⟩ := hsince
  refine ⟨⟨earlier, by rw [List.append_assoc, List.cons_append]⟩, ?_⟩
  exact List.forall_mem_append.mpr ⟨hlater, hmore⟩

/-- Since it was registered under an identifier, a body was run and took so long. -/
def HasRun (history : List (Occurrence β)) (id : SystemId) (body : β) (took : Duration) : Prop :=
  ∃ later, IsSince history id body later ∧ .ran id body took ∈ later

theorem HasRun.append {history more : List (Occurrence β)} {id : SystemId} {body : β}
    {took : Duration} (hrun : HasRun history id body took)
    (hmore : ∀ occurrence ∈ more, occurrence.changed? ≠ some id) :
    HasRun (history ++ more) id body took := by
  obtain ⟨later, hsince, hmem⟩ := hrun
  exact ⟨later ++ more, hsince.append hmore, List.mem_append_left _ hmem⟩

/-- The run as something that happened, if its time was kept. -/
def occurrence? (run : BodyRun β σ) : Option (Occurrence β) :=
  run.reply.sample?.map (.ran run.id run.body)

def runs [Behaviour β σ] (scheduler : Scheduler β) (context : TickContext)
    (halt : Nat → σ → Bool) (shared : σ) : List (BodyRun β σ) :=
  match scheduler.prepare with
  | .error _ => []
  | .ok prepared =>
      prepared.plan.journal prepared.pool context halt ⟨shared, prepared.profiler⟩

/-- A history of what happened to the systems of a scheduler in the operations that led to
it. -/
inductive Recounts (σ : Type v) [Behaviour β σ] (config : Config) (pool : Pool) :
    List (Occurrence β) → Scheduler β → Prop
  | start : Recounts σ config pool [] (withPool config pool)
  | register {history : List (Occurrence β)} {scheduler result : Scheduler β}
      (descriptor : Descriptor β) (id : SystemId) :
      Recounts σ config pool history scheduler →
        scheduler.register descriptor = .ok (id, result) →
          Recounts σ config pool (history ++ [.registered id descriptor.body]) result
  | unregister {history : List (Occurrence β)} {scheduler result : Scheduler β}
      (id : SystemId) :
      Recounts σ config pool history scheduler → scheduler.unregister id = .ok result →
        Recounts σ config pool (history ++ [.removed id]) result
  | unregisterModule {history : List (Occurrence β)} {scheduler result : Scheduler β}
      (owner : ModuleId) (removed : List SystemId) :
      Recounts σ config pool history scheduler →
        scheduler.unregisterModule owner = .ok (removed, result) →
          Recounts σ config pool (history ++ removed.map .removed) result
  | setTagOrder {history : List (Occurrence β)} {scheduler : Scheduler β} (tags : TagOrder) :
      Recounts σ config pool history scheduler →
        Recounts σ config pool history (scheduler.setTagOrder tags)
  | prepare {history : List (Occurrence β)} {scheduler result : Scheduler β} :
      Recounts σ config pool history scheduler → scheduler.prepare = .ok result →
        Recounts σ config pool history result
  | rebuild {history : List (Occurrence β)} {scheduler result : Scheduler β} :
      Recounts σ config pool history scheduler → scheduler.rebuild = .ok result →
        Recounts σ config pool history result
  | runTick {history : List (Occurrence β)} {scheduler : Scheduler β} (context : TickContext)
      (halt : Nat → σ → Bool) (shared : σ) :
      Recounts σ config pool history scheduler →
        Recounts σ config pool
          (history ++ (scheduler.runs context halt shared).filterMap occurrence?)
          (scheduler.runTick context halt shared).2.1

/-- Every state that operations lead to has a history. -/
theorem Reachable.exists_recounts [Behaviour β σ] {config : Config} {pool : Pool}
    {scheduler : Scheduler β} (hreach : Reachable σ config pool scheduler) :
    ∃ history, Recounts σ config pool history scheduler := by
  induction hreach with
  | start => exact ⟨_, .start⟩
  | register descriptor id _ hregister ih =>
      obtain ⟨history, hhistory⟩ := ih
      exact ⟨_, hhistory.register descriptor id hregister⟩
  | unregister id _ hunregister ih =>
      obtain ⟨history, hhistory⟩ := ih
      exact ⟨_, hhistory.unregister id hunregister⟩
  | unregisterModule owner removed _ hunregister ih =>
      obtain ⟨history, hhistory⟩ := ih
      exact ⟨_, hhistory.unregisterModule owner removed hunregister⟩
  | setTagOrder tags _ ih =>
      obtain ⟨history, hhistory⟩ := ih
      exact ⟨_, hhistory.setTagOrder tags⟩
  | prepare _ hprepare ih =>
      obtain ⟨history, hhistory⟩ := ih
      exact ⟨_, hhistory.prepare hprepare⟩
  | rebuild _ hrebuild ih =>
      obtain ⟨history, hhistory⟩ := ih
      exact ⟨_, hhistory.rebuild hrebuild⟩
  | runTick context halt shared _ ih =>
      obtain ⟨history, hhistory⟩ := ih
      exact ⟨_, hhistory.runTick context halt shared⟩

/-- What the table, the plan and the profiler hold belongs to registrations that a history
ends with. -/
structure IsCurrent (history : List (Occurrence β)) (scheduler : Scheduler β) : Prop where
  table : scheduler.table.WellFormed
  distinct : (scheduler.plan.systems.map PlannedSystem.id).Nodup
  standing : ∀ descriptor ∈ scheduler.table.toList,
    ∃ later, IsSince history descriptor.id descriptor.body later
  held : ∀ id body, scheduler.plan.Holds id body →
    ∃ descriptor ∈ scheduler.table.toList, descriptor.id = id ∧ descriptor.body = body
  kept : ∀ id took, scheduler.profiler.Keeps id took →
    ∃ descriptor ∈ scheduler.table.toList,
      descriptor.id = id ∧ HasRun history id descriptor.body took

namespace IsCurrent

theorem withPool (config : Config) (pool : Pool) :
    IsCurrent [] (Scheduler.withPool config pool : Scheduler β) where
  table := Table.wellFormed_empty
  distinct := List.nodup_nil
  standing _ hdescriptor := by cases hdescriptor
  held := by
    rintro id body ⟨system, hsystem, -⟩
    cases hsystem
  kept := by
    rintro id took ⟨window, hwindow, -⟩
    cases hwindow

variable {history : List (Occurrence β)} {scheduler result : Scheduler β}
variable (hcurrent : IsCurrent history scheduler)
include hcurrent

theorem register {descriptor : Descriptor β} {id : SystemId}
    (hregister : scheduler.register descriptor = .ok (id, result)) :
    IsCurrent (history ++ [.registered id descriptor.body]) result := by
  obtain ⟨table, hfound, rfl⟩ := register_eq_ok hregister
  obtain ⟨hlist, hfree⟩ := Table.toList_of_register hfound
  have hold : ∀ other ∈ scheduler.table.toList, other ∈ table.toList := by
    intro other hother
    rw [hlist]
    exact List.mem_append_left _ hother
  have hnew : ∀ other ∈ scheduler.table.toList,
      ∀ occurrence ∈ [Occurrence.registered id descriptor.body],
        occurrence.changed? ≠ some other.id := by
    intro other hother occurrence hoccurrence heq
    rw [List.mem_singleton.mp hoccurrence] at heq
    have htaken : scheduler.table.contains id = true := by
      rw [hcurrent.table.contains_eq_true_iff, Option.some.inj heq]
      exact List.mem_map_of_mem hother
    exact Bool.false_ne_true (hfree.symm.trans htaken)
  constructor
  · exact hcurrent.table.register hfound
  · exact hcurrent.distinct
  · intro other hother
    change other ∈ table.toList at hother
    rw [hlist] at hother
    rcases List.mem_append.mp hother with hmem | hlast
    · obtain ⟨later, hsince⟩ := hcurrent.standing other hmem
      exact ⟨_, hsince.append (hnew other hmem)⟩
    · obtain rfl := List.mem_singleton.mp hlast
      exact ⟨[], ⟨history, rfl⟩, fun _ hoccurrence => absurd hoccurrence List.not_mem_nil⟩
  · intro other body hholds
    obtain ⟨found, hmem, hfound⟩ := hcurrent.held other body hholds
    exact ⟨found, hold found hmem, hfound⟩
  · intro other took hkeeps
    obtain ⟨found, hmem, rfl, hrun⟩ := hcurrent.kept other took hkeeps
    exact ⟨found, hold found hmem, rfl, hrun.append (hnew found hmem)⟩

/-- Removing systems leaves nothing of them. -/
theorem remove (removed : List SystemId) {table : Table β} (htable : table.WellFormed)
    (hmem : ∀ {descriptor}, descriptor ∈ table.toList ↔
      descriptor ∈ scheduler.table.toList ∧ descriptor.id ∉ removed) :
    IsCurrent (history ++ removed.map .removed)
      { removed.foldl forget scheduler with table := table, isDirty := true } := by
  rw [foldl_forget_eq hcurrent.distinct]
  have hother : ∀ id ∉ removed, ∀ occurrence ∈ removed.map (.removed : _ → Occurrence β),
      occurrence.changed? ≠ some id := by
    intro id hnot occurrence hoccurrence heq
    obtain ⟨gone, hgone, rfl⟩ := List.mem_map.mp hoccurrence
    exact hnot (Option.some.inj heq ▸ hgone)
  constructor
  · exact htable
  · rw [Plan.map_id_systems_without]
    exact hcurrent.distinct
  · intro descriptor hdescriptor
    obtain ⟨hold, hnot⟩ := hmem.mp hdescriptor
    obtain ⟨later, hsince⟩ := hcurrent.standing descriptor hold
    exact ⟨_, hsince.append (hother descriptor.id hnot)⟩
  · intro id body hholds
    obtain ⟨hholds, hnot⟩ := Plan.holds_without hholds
    obtain ⟨descriptor, hdescriptor, rfl, hbody⟩ := hcurrent.held id body hholds
    exact ⟨descriptor, hmem.mpr ⟨hdescriptor, hnot⟩, rfl, hbody⟩
  · intro id took hkeeps
    obtain ⟨hkeeps, hnot⟩ := Profiler.keeps_without hkeeps
    obtain ⟨descriptor, hdescriptor, rfl, hrun⟩ := hcurrent.kept id took hkeeps
    exact ⟨descriptor, hmem.mpr ⟨hdescriptor, hnot⟩, rfl,
      hrun.append (hother descriptor.id hnot)⟩

theorem unregister {id : SystemId} (hunregister : scheduler.unregister id = .ok result) :
    IsCurrent (history ++ [.removed id]) result := by
  obtain ⟨descriptor, table, hfound, rfl⟩ := unregister_eq_ok hunregister
  refine hcurrent.remove [id] (hcurrent.table.unregister hfound) ?_
  intro other
  rw [hcurrent.table.mem_toList_unregister hfound, List.mem_singleton]

theorem unregisterModule {owner : ModuleId} {removed : List SystemId}
    (hunregister : scheduler.unregisterModule owner = .ok (removed, result)) :
    IsCurrent (history ++ removed.map .removed) result := by
  obtain ⟨table, hfound, rfl⟩ := unregisterModule_eq_ok hunregister
  exact hcurrent.remove removed (hcurrent.table.unregisterModule hfound)
    (hcurrent.table.mem_toList_unregisterModule hfound)

theorem setTagOrder (tags : TagOrder) : IsCurrent history (scheduler.setTagOrder tags) := by
  rw [Scheduler.setTagOrder]
  split
  · exact hcurrent
  · exact ⟨hcurrent.table, hcurrent.distinct, hcurrent.standing, hcurrent.held, hcurrent.kept⟩

theorem rebuild (hrebuild : scheduler.rebuild = .ok result) : IsCurrent history result := by
  obtain ⟨plan, hplan, rfl⟩ := rebuild_eq_ok hrebuild
  constructor
  · exact hcurrent.table
  · rw [Plan.map_id_systems_of_build hplan]
    exact hcurrent.table.distinct
  · exact hcurrent.standing
  · rintro id body ⟨system, hsystem, rfl, hbody⟩
    obtain ⟨descriptor, hdescriptor, hid, hown⟩ := body?_of_build hplan hsystem
    exact ⟨descriptor, hdescriptor, hid, Option.some.inj (hown.symm.trans hbody)⟩
  · exact hcurrent.kept

theorem prepare (hprepare : scheduler.prepare = .ok result) : IsCurrent history result := by
  rcases prepare_ok_cases hprepare with hrebuild | ⟨-, rfl⟩
  · exact hcurrent.rebuild hrebuild
  · exact hcurrent

/-- The runs of a tick are runs of what is registered. -/
theorem runTick [Behaviour β σ] (context : TickContext) (halt : Nat → σ → Bool) (shared : σ) :
    IsCurrent (history ++ (scheduler.runs context halt shared).filterMap occurrence?)
      (scheduler.runTick context halt shared).2.1 := by
  rw [Scheduler.runTick, Scheduler.runs]
  cases hprepare : scheduler.prepare with
  | error dependency =>
      dsimp only
      rw [List.filterMap_nil, List.append_nil]
      exact hcurrent
  | ok prepared =>
      have hprepared := hcurrent.prepare hprepare
      let journal := prepared.plan.journal prepared.pool context halt ⟨shared, prepared.profiler⟩
      have hmore : ∀ id, ∀ occurrence ∈ journal.filterMap occurrence?,
          occurrence.changed? ≠ some id := by
        intro id occurrence hoccurrence
        obtain ⟨run, -, hfound⟩ := List.mem_filterMap.mp hoccurrence
        obtain ⟨took, -, rfl⟩ := Option.map_eq_some_iff.mp hfound
        rintro ⟨⟩
      constructor
      · exact hprepared.table
      · exact hprepared.distinct
      · intro descriptor hdescriptor
        obtain ⟨later, hsince⟩ := hprepared.standing descriptor hdescriptor
        exact ⟨_, hsince.append (hmore descriptor.id)⟩
      · exact hprepared.held
      · intro id took hkeeps
        change Profiler.Keeps (prepared.plan.execute prepared.pool context halt
          ⟨shared, prepared.profiler⟩).2.profiler id took at hkeeps
        rw [Plan.profiler_execute] at hkeeps
        rcases Profiler.keeps_foldl_recordIn hkeeps with hold | ⟨run, hrun, rfl, hsample⟩
        · obtain ⟨descriptor, hdescriptor, hid, hrun⟩ := hprepared.kept id took hold
          exact ⟨descriptor, hdescriptor, hid, hrun.append (hmore id)⟩
        · obtain ⟨descriptor, hdescriptor, hid, hbody⟩ :=
            hprepared.held run.id run.body (Plan.holds_of_mem_journal hrun)
          obtain ⟨later, hsince⟩ := hprepared.standing descriptor hdescriptor
          rw [hid, hbody] at hsince
          refine ⟨descriptor, hdescriptor, hid, ?_⟩
          rw [hbody]
          refine ⟨_, hsince.append (hmore run.id), List.mem_append_right _ ?_⟩
          exact List.mem_filterMap.mpr ⟨run, hrun, by rw [occurrence?, hsample, Option.map_some]⟩

end IsCurrent

theorem Recounts.isCurrent [Behaviour β σ] {config : Config} {pool : Pool}
    {history : List (Occurrence β)} {scheduler : Scheduler β}
    (hrecounts : Recounts σ config pool history scheduler) : IsCurrent history scheduler := by
  induction hrecounts with
  | start => exact IsCurrent.withPool config pool
  | register _ _ _ hregister ih => exact ih.register hregister
  | unregister _ _ hunregister ih => exact ih.unregister hunregister
  | unregisterModule _ _ _ hunregister ih => exact ih.unregisterModule hunregister
  | setTagOrder tags _ ih => exact ih.setTagOrder tags
  | prepare _ hprepare ih => exact ih.prepare hprepare
  | rebuild _ hrebuild ih => exact ih.rebuild hrebuild
  | runTick context halt shared _ ih => exact ih.runTick context halt shared

/-- Nothing is held for a system that is not registered, and nothing is left of an earlier
registration of its identifier: the body that the plan holds for an identifier is that of
the descriptor registered under it now, and whatever the history of the scheduler, every
run time kept for the identifier is that of a run of this body since its registration. -/
structure HoldsNoRemains (σ : Type v) [Behaviour β σ] (config : Config) (pool : Pool)
    (scheduler : Scheduler β) : Prop where
  held : ∀ system ∈ scheduler.plan.systems, ∀ body, system.body? = some body →
    ∃ descriptor, scheduler.table.get? system.id = some descriptor ∧ descriptor.body = body
  registered : ∀ entry ∈ scheduler.profiler.windows, scheduler.table.contains entry.1 = true
  recounted : ∃ history, Recounts σ config pool history scheduler
  kept : ∀ history, Recounts σ config pool history scheduler →
    ∀ entry ∈ scheduler.profiler.windows,
      ∃ descriptor, scheduler.table.get? entry.1 = some descriptor ∧
        ∀ took ∈ entry.2.last :: entry.2.samples, HasRun history entry.1 descriptor.body took

/-- Whatever operations led to a state, nothing in it outlives its registration. -/
theorem holdsNoRemains_of_reachable [Behaviour β σ] {config : Config} {pool : Pool}
    {scheduler : Scheduler β} (hreach : Reachable σ config pool scheduler) :
    scheduler.HoldsNoRemains σ config pool := by
  have hkept : ∀ history, Recounts σ config pool history scheduler →
      ∀ entry ∈ scheduler.profiler.windows,
        ∃ descriptor, scheduler.table.get? entry.1 = some descriptor ∧
          ∀ took ∈ entry.2.last :: entry.2.samples,
            HasRun history entry.1 descriptor.body took := by
    intro history hrecounts entry hentry
    have hcurrent := hrecounts.isCurrent
    have hkeeps : ∀ took ∈ entry.2.last :: entry.2.samples,
        ∃ descriptor, scheduler.table.get? entry.1 = some descriptor ∧
          HasRun history entry.1 descriptor.body took := by
      intro took htook
      obtain ⟨descriptor, hdescriptor, hid, hrun⟩ :=
        hcurrent.kept entry.1 took ⟨entry.2, hentry, htook⟩
      exact ⟨descriptor, hcurrent.table.get?_eq_some_iff.mpr ⟨hdescriptor, hid⟩, hrun⟩
    obtain ⟨descriptor, hfound, -⟩ := hkeeps entry.2.last List.mem_cons_self
    refine ⟨descriptor, hfound, fun took htook => ?_⟩
    obtain ⟨other, hother, hrun⟩ := hkeeps took htook
    rwa [Option.some.inj (hfound.symm.trans hother)]
  obtain ⟨history, hrecounts⟩ := hreach.exists_recounts
  have hcurrent := hrecounts.isCurrent
  constructor
  · intro system hsystem body hbody
    obtain ⟨descriptor, hdescriptor, hid, hown⟩ :=
      hcurrent.held system.id body ⟨system, hsystem, rfl, hbody⟩
    exact ⟨descriptor, hcurrent.table.get?_eq_some_iff.mpr ⟨hdescriptor, hid⟩, hown⟩
  · intro entry hentry
    obtain ⟨descriptor, hfound, -⟩ := hkept history hrecounts entry hentry
    obtain ⟨hdescriptor, hid⟩ := hcurrent.table.get?_eq_some_iff.mp hfound
    rw [hcurrent.table.contains_eq_true_iff, ← hid]
    exact List.mem_map_of_mem hdescriptor
  · exact ⟨history, hrecounts⟩
  · exact hkept

structure Nap where
  took : Duration

instance : Behaviour Nap Unit where
  run nap _ _ _ := ⟨.done, (), nap.took⟩

def napSettings : Config := (Config.ofCores 1).withSamples 2

/-- A system naps and is removed; then its identifier is used for another nap. -/
def renewed : Except TableError (Scheduler Nap) :=
  match (withPool napSettings .inline).register ((Descriptor.ofBody "doze" ⟨⟨3⟩⟩).withId ⟨1⟩) with
  | .error error => .error error
  | .ok (_, first) =>
      match (first.runTick ⟨1, 0⟩ (fun _ _ => false) ()).2.1.unregister ⟨1⟩ with
      | .error error => .error error
      | .ok removed =>
          match removed.register ((Descriptor.ofBody "sleep" ⟨⟨5⟩⟩).withId ⟨1⟩) with
          | .error error => .error error
          | .ok (_, again) => .ok (again.runTick ⟨2, 0⟩ (fun _ _ => false) ()).2.1

theorem reachable_of_renewed_eq_ok {scheduler : Scheduler Nap}
    (hrenewed : renewed = .ok scheduler) : Reachable Unit napSettings .inline scheduler := by
  rw [renewed] at hrenewed
  split at hrenewed
  · cases hrenewed
  rename_i first hfirst
  split at hrenewed
  · cases hrenewed
  rename_i removed hremoved
  split at hrenewed
  · cases hrenewed
  rename_i again hagain
  cases hrenewed
  exact (((((Reachable.start.register _ _ hfirst).runTick _ _ ()).unregister _ hremoved).register
    _ _ hagain).runTick _ _ ())

theorem holdsNoRemains_of_reachable_renewed :
    ∃ scheduler, renewed = .ok scheduler ∧ Reachable Unit napSettings .inline scheduler ∧
      scheduler.profiler.windows = [(⟨1⟩, ⟨[⟨5⟩, ⟨5⟩], 0, ⟨5⟩⟩)] ∧
        scheduler.HoldsNoRemains Unit napSettings .inline := by
  have hwindows : renewed.toOption.map (fun scheduler => scheduler.profiler.windows) =
      some [(⟨1⟩, ⟨[⟨5⟩, ⟨5⟩], 0, ⟨5⟩⟩)] := by
    decide +kernel
  cases hrenewed : renewed with
  | error error =>
      rw [hrenewed] at hwindows
      cases hwindows
  | ok scheduler =>
      rw [hrenewed] at hwindows
      have hreach := reachable_of_renewed_eq_ok hrenewed
      exact ⟨scheduler, rfl, hreach, Option.some.inj hwindows,
        holdsNoRemains_of_reachable hreach⟩

end Scheduler

end TickWaves
