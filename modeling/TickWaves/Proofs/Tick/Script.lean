import TickWaves.Proofs.Tick.Policy

/-!
# Ticks whose bodies follow a script

If how a body ends, and whether it sets the cancel token, depends on the tick alone, then
the script of the bodies tells beforehand what a tick reports (`Plan.scriptedReport`).  A
tick on a pool that runs its units reports just that, whatever the workspace holds besides
the token (`untimed_execute_eq`).  The script does not ask for threads, so the systems that
are bound to the coordinating thread may be any (`scriptedReport_flagged`).
-/

namespace TickWaves

universe u v

def Outcome.untimed (outcome : Outcome) : Outcome := { outcome with elapsed? := none }

namespace Report

def untimed (report : Report) : Report :=
  { report with outcomes := report.outcomes.map Outcome.untimed }

/-- Run times have no part in failures. -/
theorem failures_untimed (report : Report) : report.untimed.failures = report.failures := by
  have hsiblings : ∀ outcome : Outcome,
      report.untimed.siblings outcome.untimed = report.siblings outcome := by
    intro outcome
    rw [siblings, siblings, untimed, List.filter_map, List.map_map]
    rfl
  have hskipped : ∀ id, report.untimed.skippedBy id = report.skippedBy id := by
    intro id
    rw [skippedBy, skippedBy, untimed, List.filter_map, List.map_map]
    rfl
  have hfailure : ∀ outcome : Outcome,
      report.untimed.failure? outcome.untimed = report.failure? outcome := by
    intro outcome
    simp only [failure?, hsiblings, hskipped]
    rfl
  rw [failures, failures]
  conv_lhs => rw [untimed, List.filterMap_map]
  exact List.filterMap_congr fun outcome _ => hfailure outcome

end Report

namespace Plan

variable {β : Type u} {σ : Type v}

/-- The plan with other systems bound to the coordinating thread. -/
def flagged (plan : Plan β) (flags : Nat → Bool) : Plan β :=
  { plan with
    systems := plan.systems.mapIdx fun node system =>
      { system with onMainThread := flags node } }

/-- How the unit at a position ends, and whether it sets the cancel token, if `act` says so
of the bodies. -/
def script (plan : Plan β) (act : β → Ending × Bool) (node : Nat) : Ending × Bool :=
  match plan.systems[node]? with
  | none => (.done, false)
  | some system =>
      match system.body? with
      | none => (.failed ["system `" ++ system.name ++ "` was unregistered"], false)
      | some body => act body

/-- How the bodies of a plan end, and whether they set the cancel token, is as `act` says,
on any thread and whatever the systems share. -/
def Follows [Behaviour β σ] (plan : Plan β) (context : TickContext) (token : σ → Bool)
    (act : β → Ending × Bool) : Prop :=
  ∀ system ∈ plan.systems, ∀ body, system.body? = some body → ∀ lane shared,
    (Behaviour.run body context lane shared).ending = (act body).1 ∧
      token (Behaviour.run body context lane shared).shared = (token shared || (act body).2)

section Scripted

variable (plan : Plan β) (script : Nat → Ending × Bool)

/-- What is decided after the first waves. -/
def scriptedFates (count : Nat) : Nat → Option Status :=
  plan.fatesAfter (fun node => (script node).1.result) count

def scriptedRunnable (count : Nat) (wave : Wave) : List Nat :=
  wave.nodes.filter fun node => (plan.blockerBy (plan.scriptedFates script count) node).isNone

def scriptedToken (token : Bool) : Nat → Bool
  | 0 => token
  | count + 1 =>
      scriptedToken token count ||
        (plan.waves[count]?).any fun wave =>
          (plan.scriptedRunnable script count wave).any fun node => (script node).2

def scriptedCount (token : Bool) : Nat :=
  ((List.range plan.waves.length).find? (plan.scriptedToken script token)).getD
    plan.waves.length

def outcomesBy (fates : Nat → Option Status) : List Outcome :=
  plan.waves.zipIdx.flatMap fun (wave, index) =>
    (plan.systemsAt wave.nodes).map fun (node, system) =>
      ⟨system.id, system.name, index, (fates node).getD .cancelled, none⟩

/-- What a tick reports, apart from run times. -/
def scriptedReport (context : TickContext) (token : Bool) : Report :=
  let count := plan.scriptedCount script token
  { tick := context.tick
    generation := plan.generation
    outcomes := plan.outcomesBy (plan.scriptedFates script count)
    wavesRun := count
    isCancelled := decide (count < plan.waves.length) }

variable {plan script}

theorem scriptedToken_succ {count : Nat} {wave : Wave} (hwave : plan.waves[count]? = some wave)
    (token : Bool) :
    plan.scriptedToken script token (count + 1) =
      (plan.scriptedToken script token count ||
        (plan.scriptedRunnable script count wave).any fun node => (script node).2) := by
  rw [scriptedToken, hwave, Option.any_some]

/-- The waves that run are those up to the first one before which the token is set. -/
theorem eq_scriptedCount {token : Bool} {count : Nat}
    (hclear : ∀ index < count, plan.scriptedToken script token index = false)
    (hlast : count = plan.waves.length ∨
      count < plan.waves.length ∧ plan.scriptedToken script token count = true) :
    count = plan.scriptedCount script token := by
  rw [scriptedCount]
  rcases hlast with rfl | ⟨hlt, hset⟩
  · rw [List.find?_eq_none.mpr, Option.getD_none]
    intro index hindex
    rw [hclear index (List.mem_range.mp hindex)]
    exact Bool.false_ne_true
  · have hfound : (List.range plan.waves.length).find? (plan.scriptedToken script token) =
        some count := by
      rw [List.find?_range_eq_some]
      refine ⟨hset, List.mem_range.mpr hlt, fun index hindex => ?_⟩
      rw [hclear index hindex]
      rfl
    rw [hfound, Option.getD_some]

theorem map_untimed_outcomes (settled : List Settled) :
    (plan.outcomes settled).map Outcome.untimed = plan.outcomesBy (Settled.fates settled) := by
  rw [outcomes, List.map_flatMap, outcomesBy]
  apply List.flatMap_congr
  intro entry _
  rw [List.map_map]
  rfl

end Scripted

section Flagged

variable {plan : Plan β} (flags : Nat → Bool)

theorem getElem?_systems_flagged (node : Nat) :
    (plan.flagged flags).systems[node]? =
      plan.systems[node]?.map fun system => { system with onMainThread := flags node } := by
  rw [flagged, List.getElem?_mapIdx]

theorem script_flagged (act : β → Ending × Bool) :
    (plan.flagged flags).script act = plan.script act := by
  funext node
  rw [script, script, getElem?_systems_flagged]
  cases plan.systems[node]? <;> rfl

theorem Follows.flagged [Behaviour β σ] {context : TickContext} {token : σ → Bool}
    {act : β → Ending × Bool} (hfollows : plan.Follows context token act) :
    (plan.flagged flags).Follows context token act := by
  intro system hsystem body hbody
  obtain ⟨node, hnode⟩ := List.getElem?_of_mem hsystem
  rw [getElem?_systems_flagged] at hnode
  obtain ⟨own, hown, rfl⟩ := Option.map_eq_some_iff.mp hnode
  exact hfollows own (List.mem_of_getElem? hown) body hbody

theorem blockerBy_flagged (fates : Nat → Option Status) (node : Nat) :
    (plan.flagged flags).blockerBy fates node = plan.blockerBy fates node := by
  have hid : ∀ other : Nat, (plan.flagged flags).systems[other]?.map PlannedSystem.id =
      plan.systems[other]?.map PlannedSystem.id := by
    intro other
    rw [getElem?_systems_flagged, Option.map_map]
    rfl
  simp only [blockerBy, hid]
  rw [getElem?_systems_flagged]
  cases plan.systems[node]? <;> rfl

theorem fatesAfter_flagged (answers : Nat → TaskResult) (count : Nat) :
    (plan.flagged flags).fatesAfter answers count = plan.fatesAfter answers count := by
  induction count with
  | zero => rfl
  | succ count ih =>
      have hwaves : (plan.flagged flags).waves[count]? = plan.waves[count]? := rfl
      cases hwave : plan.waves[count]? with
      | none =>
          rw [fatesAfter, fatesAfter, hwaves, hwave]
          exact ih
      | some wave =>
          rw [fatesAfter_succ hwave, fatesAfter_succ (hwaves.trans hwave), ih]
          funext node
          simp only [pass, decision, blockerBy_flagged]

theorem scriptedToken_flagged (script : Nat → Ending × Bool) (token : Bool) (count : Nat) :
    (plan.flagged flags).scriptedToken script token count =
      plan.scriptedToken script token count := by
  induction count with
  | zero => rfl
  | succ count ih =>
      rw [scriptedToken, scriptedToken, ih]
      simp only [scriptedRunnable, scriptedFates, fatesAfter_flagged, blockerBy_flagged]
      rfl

theorem outcomesBy_flagged (fates : Nat → Option Status) :
    (plan.flagged flags).outcomesBy fates = plan.outcomesBy fates := by
  rw [outcomesBy, outcomesBy]
  apply List.flatMap_congr
  rintro ⟨wave, index⟩ _
  dsimp only
  rw [systemsAt, systemsAt, List.map_filterMap, List.map_filterMap]
  apply List.filterMap_congr
  intro node _
  rw [getElem?_systems_flagged, Option.map_map, Option.map_map, Option.map_map]
  rfl

/-- Which systems are bound to the coordinating thread has no part in the report. -/
theorem scriptedReport_flagged (script : Nat → Ending × Bool) (context : TickContext)
    (token : Bool) :
    (plan.flagged flags).scriptedReport script context token =
      plan.scriptedReport script context token := by
  have hcount : (plan.flagged flags).scriptedCount script token =
      plan.scriptedCount script token := by
    rw [scriptedCount, scriptedCount]
    simp only [funext (scriptedToken_flagged flags script token)]
    rfl
  rw [scriptedReport, scriptedReport, hcount, outcomesBy_flagged, scriptedFates,
    fatesAfter_flagged]
  rfl

end Flagged

section Run

variable [Behaviour β σ] {plan : Plan β} {context : TickContext} {token : σ → Bool}
variable {act : β → Ending × Bool}
variable (hfollows : plan.Follows context token act)
include hfollows

theorem runOn_work_of_follows {node : Nat} {system : PlannedSystem β}
    (hsystem : plan.systems[node]? = some system) (lane : Lane) (workspace : Workspace σ) :
    ((system.work context).runOn lane workspace).1 = (plan.script act node).1.result ∧
      token ((system.work context).runOn lane workspace).2.shared =
        (token workspace.shared || (plan.script act node).2) := by
  rw [script, hsystem, Work.runOn, PlannedSystem.work]
  cases hbody : system.body? with
  | none =>
      simp only [hbody, Bool.or_false]
      exact ⟨trivial, trivial⟩
  | some body =>
      obtain ⟨hending, htoken⟩ :=
        hfollows system (List.mem_of_getElem? hsystem) body hbody lane workspace.shared
      simp only [hbody, ← hending, ← htoken]
      cases (Behaviour.run body context lane workspace.shared).ending <;> exact ⟨rfl, rfl⟩

/-- Systems that run one after the other follow the script. -/
theorem runEach_of_follows (lanes : Nat → Lane) {order : List Nat}
    (hbound : ∀ node ∈ order, node < plan.systems.length) (workspace : Workspace σ) :
    (∀ entry ∈ (plan.runEach context lanes order workspace).1,
        entry.2 = (plan.script act entry.1).1.result) ∧
      token (plan.runEach context lanes order workspace).2.shared =
        (token workspace.shared || order.any fun node => (plan.script act node).2) := by
  induction order generalizing workspace with
  | nil => exact ⟨fun _ hentry => absurd hentry List.not_mem_nil, (Bool.or_false _).symm⟩
  | cons node order ih =>
      obtain ⟨system, hsystem⟩ : ∃ system, plan.systems[node]? = some system :=
        ⟨_, List.getElem?_eq_getElem (hbound node List.mem_cons_self)⟩
      obtain ⟨hresult, htoken⟩ :=
        runOn_work_of_follows hfollows hsystem (lanes node) workspace
      obtain ⟨hresults, hlast⟩ :=
        ih (fun other hother => hbound other (List.mem_cons_of_mem _ hother))
          ((system.work context).runOn (lanes node) workspace).2
      rw [runEach_cons hsystem]
      constructor
      · exact List.forall_mem_cons.mpr ⟨hresult, hresults⟩
      · rw [List.any_cons, ← Bool.or_assoc, ← htoken]
        exact hlast

/-- A pool that runs its units follows the script, whatever order it takes. -/
theorem dispatch_of_follows {pool : Pool} (hopen : pool ≠ .closed) {nodes : List Nat}
    (hbound : ∀ node ∈ nodes, node < plan.systems.length) (workspace : Workspace σ) :
    (∀ entry ∈ (plan.dispatch pool context nodes workspace).1,
        entry.2 = (plan.script act entry.1).1.result) ∧
      token (plan.dispatch pool context nodes workspace).2.shared =
        (token workspace.shared || nodes.any fun node => (plan.script act node).2) := by
  obtain ⟨lane, hlane⟩ := Pool.exists_lane?_eq_some hopen
  by_cases hlength : nodes.length = 1
  · obtain ⟨node, rfl⟩ := List.length_eq_one_iff.mp hlength
    rw [dispatch_singleton pool context (hbound node List.mem_cons_self)]
    exact runEach_of_follows hfollows _ hbound workspace
  · rw [dispatch_of_length_ne_one hlane context hbound hlength]
    have hsome : ∀ keep : Nat → Bool, ∀ node ∈ nodes.filter keep, node < plan.systems.length :=
      fun keep node hnode => hbound node (List.mem_of_mem_filter hnode)
    have hpooled := runEach_of_follows hfollows (plan.laneOf lane)
      (hsome fun node => !plan.isBound node) workspace
    have hmain := runEach_of_follows hfollows (plan.laneOf lane)
      (hsome fun node => plan.isBound node) (plan.runEach context (plan.laneOf lane)
        (nodes.filter fun node => !plan.isBound node) workspace).2
    constructor
    · intro entry hentry
      obtain ⟨node, -, hfound⟩ := List.mem_filterMap.mp hentry
      obtain ⟨result, hlookup, rfl⟩ := Option.map_eq_some_iff.mp hfound
      rcases List.mem_append.mp (mem_of_lookup_eq_some hlookup) with hmem | hmem
      · exact hmain.1 _ hmem
      · exact hpooled.1 _ hmem
    · have hperm := (List.filter_append_perm (fun node => plan.isBound node) nodes).any_eq
        (f := fun node => (plan.script act node).2)
      refine hmain.2.trans ?_
      rw [hpooled.2, ← hperm, List.any_append, Bool.or_assoc,
        Bool.or_comm (List.any (List.filter _ _) _)]

variable {pool : Pool} (hopen : pool ≠ .closed)
variable (hbound : ∀ wave ∈ plan.waves, ∀ node ∈ wave.nodes, node < plan.systems.length)
include hopen hbound

theorem fates_upTo_of_follows (workspace : Workspace σ) (count : Nat) :
    Settled.fates (plan.upTo pool context workspace count).1 =
      plan.scriptedFates (plan.script act) count := by
  apply fates_upTo hbound
  intro index _
  apply (dispatch_of_follows hfollows hopen _ _).1
  intro node hnode
  obtain ⟨wave, hwave, hnode⟩ := (mem_runnableAt.mp hnode).1
  exact hbound wave (List.mem_of_getElem? hwave) node hnode

theorem token_upTo_of_follows (workspace : Workspace σ) (count : Nat) :
    token (plan.upTo pool context workspace count).2.shared =
      plan.scriptedToken (plan.script act) (token workspace.shared) count := by
  induction count with
  | zero => rfl
  | succ count ih =>
      cases hwave : plan.waves[count]? with
      | none =>
          rw [upTo, scriptedToken, hwave, Option.any_none, Bool.or_false]
          exact ih
      | some wave =>
          have hrunnable : (wave.nodes.filter fun node =>
              (plan.blocker? (plan.upTo pool context workspace count).1 node).isNone) =
                plan.scriptedRunnable (plan.script act) count wave := by
            simp only [blocker?_eq_blockerBy,
              fates_upTo_of_follows hfollows hopen hbound workspace]
            rfl
          rw [upTo_succ hwave, scriptedToken_succ hwave, ← ih, ← hrunnable]
          apply (dispatch_of_follows hfollows hopen _ _).2
          intro node hnode
          exact hbound wave (List.mem_of_getElem? hwave) node (List.mem_of_mem_filter hnode)

/-- A tick on a pool that runs its units reports what the script tells. -/
theorem untimed_execute_eq (workspace : Workspace σ) :
    (plan.execute pool context (fun _ => token) workspace).1.untimed =
      plan.scriptedReport (plan.script act) context (token workspace.shared) := by
  have hcount : plan.firstHalt pool context (fun _ => token) workspace =
      plan.scriptedCount (plan.script act) (token workspace.shared) := by
    rw [firstHalt, scriptedCount]
    simp only [token_upTo_of_follows hfollows hopen hbound workspace]
  rw [execute_eq_upTo, scriptedReport, Report.untimed]
  simp only [map_untimed_outcomes, fates_upTo_of_follows hfollows hopen hbound workspace, hcount]

end Run

end Plan

end TickWaves
