import TickWaves.Proofs.Plan.Release
import TickWaves.Proofs.Tick.Course

/-!
# Which bodies a tick runs

What the systems share is open, so a body may note there that it was run.  With such
bodies a tick ends as without them (`execute_noted`), and what is noted at its end is the
journal of the tick: every run of a body, in the order of the runs (`Plan.journal`).
-/

namespace TickWaves

universe u v

variable {β : Type u} {σ : Type v}

/-- The run time that is kept: a panic leaves none. -/
def Reply.sample? (reply : Reply σ) : Option Duration :=
  match reply.ending with
  | .panicked _ => none
  | _ => some reply.took

def Profiler.recordSome (profiler : Profiler) (id : SystemId) : Option Duration → Profiler
  | none => profiler
  | some sample => profiler.record id sample

/-- What the unit of a system does that has a body. -/
theorem PlannedSystem.work_of_eq_some [Behaviour β σ] {system : PlannedSystem β} {body : β}
    (hbody : system.body? = some body) (context : TickContext) (lane : Lane)
    (workspace : Workspace σ) :
    system.work context lane workspace =
      let reply := Behaviour.run body context lane workspace.shared
      (reply.ending, ⟨reply.shared, workspace.profiler.recordSome system.id reply.sample?⟩) := by
  rw [work, hbody]
  dsimp only [Reply.sample?]
  cases (Behaviour.run body context lane workspace.shared).ending <;> rfl

/-- One run of the body of a system. -/
structure BodyRun (β : Type u) (σ : Type v) where
  id : SystemId
  body : β
  reply : Reply σ

/-- A body that notes its runs. -/
structure Noted (β : Type u) where
  id : SystemId
  body : β

instance [Behaviour β σ] : Behaviour (Noted β) (σ × List (BodyRun β σ)) where
  run noted context lane shared :=
    let reply := Behaviour.run noted.body context lane shared.1
    ⟨reply.ending, (reply.shared, shared.2 ++ [⟨noted.id, noted.body, reply⟩]), reply.took⟩

def PlannedSystem.noted (system : PlannedSystem β) : PlannedSystem (Noted β) where
  id := system.id
  name := system.name
  wave := system.wave
  onMainThread := system.onMainThread
  predecessors := system.predecessors
  body? := system.body?.map fun body => ⟨system.id, body⟩

def Plan.noted (plan : Plan β) : Plan (Noted β) where
  generation := plan.generation
  waves := plan.waves
  systems := plan.systems.map PlannedSystem.noted
  precedences := plan.precedences

namespace Workspace

/-- The workspace with room for notes. -/
def blank (β : Type u) (workspace : Workspace σ) : Workspace (σ × List (BodyRun β σ)) :=
  ⟨(workspace.shared, []), workspace.profiler⟩

def bare (workspace : Workspace (σ × List (BodyRun β σ))) : Workspace σ :=
  ⟨workspace.shared.1, workspace.profiler⟩

end Workspace

/-- A unit does to a part of its state what another unit does to the whole of its own. -/
def Work.Projects {τ υ : Type*} (part : τ → υ) (work : Work τ) (other : Work υ) : Prop :=
  ∀ lane state, Prod.map id part (work lane state) = other lane (part state)

section Projects

variable {τ υ : Type*} {part : τ → υ}

theorem Work.Projects.submit {work : Work τ} {other : Work υ}
    (hprojects : Work.Projects part work other) (pool : Pool) (state : τ) :
    Prod.map id part (pool.submit work state) = pool.submit other (part state) := by
  rw [Pool.submit, Pool.submit]
  cases pool.lane? with
  | none => rfl
  | some lane =>
      change _ = ((other lane (part state)).1.result, (other lane (part state)).2)
      rw [← hprojects lane state]
      rfl

theorem map_submitAll {works : List (Work τ)} {others : List (Work υ)}
    (hprojects : List.Forall₂ (Work.Projects part) works others) (pool : Pool) (state : τ) :
    Prod.map id part (pool.submitAll works state) = pool.submitAll others (part state) := by
  induction hprojects generalizing state with
  | nil => rfl
  | cons hfirst _ ih =>
      rw [Pool.submitAll, Pool.submitAll, ← hfirst.submit pool state]
      dsimp only [Prod.map_fst, Prod.map_snd]
      rw [← ih]
      rfl

end Projects

section Noted

variable [Behaviour β σ] {plan : Plan β} {pool : Pool} {context : TickContext}
variable {workspace : Workspace (σ × List (BodyRun β σ))}

theorem PlannedSystem.projects_work_noted (system : PlannedSystem β) (context : TickContext) :
    Work.Projects (Workspace.bare : Workspace (σ × List (BodyRun β σ)) → Workspace σ)
      (system.noted.work context) (system.work context) := by
  intro lane workspace
  cases hbody : system.body? with
  | none =>
      have hnone : system.noted.body? = none := by rw [noted, hbody, Option.map_none]
      rw [work, work, hnone, hbody]
      rfl
  | some body =>
      have hsome : system.noted.body? = some ⟨system.id, body⟩ := by
        rw [noted, hbody, Option.map_some]
      rw [work_of_eq_some hsome, work_of_eq_some hbody]
      rfl

namespace Plan

theorem getElem?_systems_noted (plan : Plan β) (node : Nat) :
    plan.noted.systems[node]? = plan.systems[node]?.map PlannedSystem.noted :=
  List.getElem?_map

theorem systemsAt_noted (plan : Plan β) (nodes : List Nat) :
    plan.noted.systemsAt nodes =
      (plan.systemsAt nodes).map (Prod.map id PlannedSystem.noted) := by
  rw [systemsAt, systemsAt, List.map_filterMap]
  apply List.filterMap_congr
  intro node _
  rw [getElem?_systems_noted, Option.map_map, Option.map_map]
  rfl

theorem blockerBy_noted (plan : Plan β) : plan.noted.blockerBy = plan.blockerBy := by
  funext fates node
  rw [blockerBy, blockerBy, getElem?_systems_noted]
  cases plan.systems[node]? with
  | none => rfl
  | some system =>
      apply findSome?_eq_of_forall
      intro before _
      rw [getElem?_systems_noted, Option.map_map]
      rfl

theorem settle_noted (plan : Plan β) : plan.noted.settle = plan.settle := by
  funext profiler node result
  rw [settle, settle, getElem?_systems_noted]
  cases plan.systems[node]? <;> rfl

theorem submitAll_noted (pool : Pool) (context : TickContext)
    (entries : List (Nat × PlannedSystem β)) (workspace : Workspace (σ × List (BodyRun β σ))) :
    Prod.map id Workspace.bare (pool.submitAll
        ((entries.map (Prod.map id PlannedSystem.noted)).map fun entry => entry.2.work context)
        workspace) =
      pool.submitAll (entries.map fun entry => entry.2.work context) workspace.bare := by
  apply map_submitAll
  rw [List.map_map, List.forall₂_map_left_iff, List.forall₂_map_right_iff, List.forall₂_same]
  intro entry _
  exact entry.2.projects_work_noted context

/-- Unless there is one entry only, the pool runs what it may and the coordinator the
rest. -/
theorem dispatch_of_forall_ne {nodes : List Nat}
    (hentries : ∀ only, plan.systemsAt nodes ≠ [only]) (workspace : Workspace σ) :
    plan.dispatch pool context nodes workspace =
      let bound := (plan.systemsAt nodes).filter fun entry => entry.2.onMainThread
      let pooled := (plan.systemsAt nodes).filter fun entry => !entry.2.onMainThread
      let first := pool.submitAll (pooled.map fun entry => entry.2.work context) workspace
      let last := Pool.runAll (bound.map fun entry => entry.2.work context) first.2
      (nodes.filterMap fun node => (((bound.map Prod.fst).zip last.1 ++
        (pooled.map Prod.fst).zip first.1).lookup node).map (node, ·), last.2) := by
  rw [dispatch]
  split
  case h_1 only honly => exact absurd honly (hentries only)
  case h_2 => rfl

theorem dispatch_noted (plan : Plan β) (pool : Pool) (context : TickContext) (nodes : List Nat)
    (workspace : Workspace (σ × List (BodyRun β σ))) :
    Prod.map id Workspace.bare (plan.noted.dispatch pool context nodes workspace) =
      plan.dispatch pool context nodes workspace.bare := by
  by_cases hone : ∃ only, plan.systemsAt nodes = [only]
  · obtain ⟨only, honly⟩ := hone
    have hwork := only.2.projects_work_noted context .coordinator workspace
    rw [dispatch, dispatch, systemsAt_noted, honly]
    dsimp only [List.map_singleton, Work.runOn]
    rw [← hwork]
    rfl
  · have hmany : ∀ only, plan.systemsAt nodes ≠ [only] := fun only heq => hone ⟨only, heq⟩
    have hmany' : ∀ only, plan.noted.systemsAt nodes ≠ [only] := by
      intro only heq
      rw [systemsAt_noted, List.map_eq_singleton_iff] at heq
      obtain ⟨entry, hentry, -⟩ := heq
      exact hmany entry hentry
    have hfilter : ∀ keep : Bool → Bool,
        ((plan.systemsAt nodes).map (Prod.map id PlannedSystem.noted)).filter
            (fun entry => keep entry.2.onMainThread) =
          ((plan.systemsAt nodes).filter fun entry => keep entry.2.onMainThread).map
            (Prod.map id PlannedSystem.noted) := fun keep => List.filter_map
    have hbound := hfilter id
    have hpooled := hfilter not
    dsimp only [id] at hbound
    have hfirst := submitAll_noted pool context
      ((plan.systemsAt nodes).filter fun entry => !entry.2.onMainThread) workspace
    rw [dispatch_of_forall_ne hmany', dispatch_of_forall_ne hmany, systemsAt_noted, hbound,
      hpooled]
    simp only [runAll_eq_submitAll]
    rw [← hfirst]
    simp only [Prod.map_fst, Prod.map_snd, Prod.map_apply, id]
    rw [← submitAll_noted]
    simp only [List.map_map]
    rfl

theorem runWave_noted (plan : Plan β) (pool : Pool) (context : TickContext) (nodes : List Nat)
    (settled : List Settled) (workspace : Workspace (σ × List (BodyRun β σ))) :
    Prod.map id Workspace.bare (plan.noted.runWave pool context nodes settled workspace) =
      plan.runWave pool context nodes settled workspace.bare := by
  have hblocker : plan.noted.blocker? settled = plan.blocker? settled :=
    congrFun plan.blockerBy_noted _
  rw [runWave, runWave, ← dispatch_noted, hblocker, settle_noted]
  rfl

theorem upTo_noted (plan : Plan β) (pool : Pool) (context : TickContext)
    (workspace : Workspace (σ × List (BodyRun β σ))) (count : Nat) :
    Prod.map id Workspace.bare (plan.noted.upTo pool context workspace count) =
      plan.upTo pool context workspace.bare count := by
  induction count with
  | zero => rfl
  | succ count ih =>
      have hwaves : plan.noted.waves = plan.waves := rfl
      rw [upTo, upTo, ← ih, hwaves]
      cases plan.waves[count]? with
      | none => rfl
      | some wave => exact plan.runWave_noted pool context wave.nodes _ _

theorem upTo_eq_map (plan : Plan β) (pool : Pool) (context : TickContext)
    (workspace : Workspace σ) (count : Nat) :
    plan.upTo pool context workspace count =
      Prod.map id Workspace.bare (plan.noted.upTo pool context (workspace.blank β) count) :=
  (plan.upTo_noted pool context (workspace.blank β) count).symm

/-- What the first waves of a tick run, if nothing stops it before. -/
def journalUpTo (plan : Plan β) (pool : Pool) (context : TickContext)
    (workspace : Workspace σ) (count : Nat) : List (BodyRun β σ) :=
  (plan.noted.upTo pool context (workspace.blank β) count).2.shared.2

/-- What a tick runs. -/
def journal (plan : Plan β) (pool : Pool) (context : TickContext) (halt : Nat → σ → Bool)
    (workspace : Workspace σ) : List (BodyRun β σ) :=
  (plan.noted.execute pool context (fun index shared => halt index shared.1)
    (workspace.blank β)).2.shared.2

theorem outcomes_noted (plan : Plan β) : plan.noted.outcomes = plan.outcomes := by
  funext settled
  rw [outcomes, outcomes]
  apply List.flatMap_congr
  rintro ⟨wave, index⟩ _
  dsimp only
  rw [systemsAt_noted, List.map_map]
  rfl

theorem firstHalt_noted (plan : Plan β) (pool : Pool) (context : TickContext)
    (halt : Nat → σ → Bool) (workspace : Workspace (σ × List (BodyRun β σ))) :
    plan.noted.firstHalt pool context (fun index shared => halt index shared.1) workspace =
      plan.firstHalt pool context halt workspace.bare := by
  rw [firstHalt, firstHalt]
  simp only [← upTo_noted]
  rfl

/-- A tick with bodies that note their runs differs from the tick without them in nothing
but the notes. -/
theorem execute_noted (plan : Plan β) (pool : Pool) (context : TickContext)
    (halt : Nat → σ → Bool) (workspace : Workspace (σ × List (BodyRun β σ))) :
    Prod.map id Workspace.bare (plan.noted.execute pool context
        (fun index shared => halt index shared.1) workspace) =
      plan.execute pool context halt workspace.bare := by
  rw [execute_eq_upTo, execute_eq_upTo, firstHalt_noted, outcomes_noted]
  dsimp only
  rw [← upTo_noted]
  rfl

/-- The waves that a tick runs are those before its first halt. -/
theorem journal_eq_journalUpTo (plan : Plan β) (pool : Pool) (context : TickContext)
    (halt : Nat → σ → Bool) (workspace : Workspace σ) :
    plan.journal pool context halt workspace =
      plan.journalUpTo pool context workspace
        (plan.firstHalt pool context halt workspace) := by
  rw [journal, execute_eq_upTo, firstHalt_noted]
  rfl

end Plan

end Noted

/-! ## What all units preserve -/

theorem submitAll_preserves {τ : Type*} {P : τ → Prop} {works : List (Work τ)}
    (hworks : ∀ work ∈ works, ∀ lane state, P state → P (work lane state).2) (pool : Pool)
    {state : τ} (hstate : P state) : P (pool.submitAll works state).2 := by
  induction works generalizing state with
  | nil => exact hstate
  | cons work works ih =>
      rw [Pool.submitAll]
      apply ih fun other hother => hworks other (List.mem_cons_of_mem _ hother)
      rw [Pool.submit]
      cases pool.lane? with
      | none => exact hstate
      | some lane => exact hworks work List.mem_cons_self lane state hstate

namespace Plan

section Preserves

variable [Behaviour β σ] {plan : Plan β} {pool : Pool} {context : TickContext}
variable {P : Workspace σ → Prop}

/-- What the units at some positions preserve, running these positions preserves. -/
theorem dispatch_preserves {nodes : List Nat}
    (hwork : ∀ node ∈ nodes, ∀ system, plan.systems[node]? = some system →
      ∀ lane workspace, P workspace → P (system.work context lane workspace).2)
    {workspace : Workspace σ} (hworkspace : P workspace) :
    P (plan.dispatch pool context nodes workspace).2 := by
  have hentry : ∀ entry ∈ plan.systemsAt nodes, ∀ lane workspace,
      P workspace → P (entry.2.work context lane workspace).2 := by
    intro entry hentry
    obtain ⟨node, hnode, hfound⟩ := List.mem_filterMap.mp hentry
    obtain ⟨system, hsystem, rfl⟩ := Option.map_eq_some_iff.mp hfound
    exact hwork node hnode system hsystem
  by_cases hone : ∃ only, plan.systemsAt nodes = [only]
  · obtain ⟨only, honly⟩ := hone
    rw [dispatch, honly]
    exact hentry only (honly ▸ List.mem_singleton_self only) .coordinator workspace hworkspace
  · have hworks : ∀ keep : Nat × PlannedSystem β → Bool,
        ∀ work ∈ ((plan.systemsAt nodes).filter keep).map fun entry => entry.2.work context,
          ∀ lane workspace, P workspace → P (work lane workspace).2 := by
      intro keep work hmem
      obtain ⟨entry, hkept, rfl⟩ := List.mem_map.mp hmem
      exact hentry entry (List.mem_of_mem_filter hkept)
    rw [dispatch_of_forall_ne fun only heq => hone ⟨only, heq⟩]
    dsimp only
    rw [runAll_eq_submitAll]
    exact submitAll_preserves (hworks _) _ (submitAll_preserves (hworks _) _ hworkspace)

/-- What the units of a plan preserve, its waves preserve. -/
theorem upTo_preserves (hwork : ∀ system ∈ plan.systems, ∀ lane workspace,
      P workspace → P (system.work context lane workspace).2)
    {workspace : Workspace σ} (hworkspace : P workspace) (count : Nat) :
    P (plan.upTo pool context workspace count).2 := by
  induction count with
  | zero => exact hworkspace
  | succ count ih =>
      cases hwave : plan.waves[count]? with
      | none =>
          rw [upTo, hwave]
          exact ih
      | some wave =>
          rw [upTo_succ hwave]
          apply dispatch_preserves _ ih
          intro node _ system hsystem
          exact hwork system (List.mem_of_getElem? hsystem)

end Preserves

end Plan

/-! ## What is in the journal -/

def BodyRun.recordIn (profiler : Profiler) (run : BodyRun β σ) : Profiler :=
  profiler.recordSome run.id run.reply.sample?

section Notes

variable [Behaviour β σ] {plan : Plan β} {pool : Pool} {context : TickContext}

/-- The runs that the unit of a system makes: one, unless its body was released. -/
def PlannedSystem.runs (system : PlannedSystem β) (context : TickContext) (lane : Lane)
    (shared : σ) : List (BodyRun β σ) :=
  (system.body?.map fun body =>
    ⟨system.id, body, Behaviour.run body context lane shared⟩).toList

theorem PlannedSystem.notes_work_noted (system : PlannedSystem β) (context : TickContext)
    (lane : Lane) (workspace : Workspace (σ × List (BodyRun β σ))) :
    (system.noted.work context lane workspace).2.shared.2 =
        workspace.shared.2 ++ system.runs context lane workspace.shared.1 ∧
      (system.noted.work context lane workspace).2.profiler =
        (system.runs context lane workspace.shared.1).foldl BodyRun.recordIn
          workspace.profiler := by
  rw [runs]
  cases hbody : system.body? with
  | none =>
      have hnone : system.noted.body? = none := by rw [noted, hbody, Option.map_none]
      rw [work, hnone]
      exact ⟨(List.append_nil _).symm, rfl⟩
  | some body =>
      have hsome : system.noted.body? = some ⟨system.id, body⟩ := by
        rw [noted, hbody, Option.map_some]
      rw [work_of_eq_some hsome]
      exact ⟨rfl, rfl⟩

namespace Plan

structure IsRunAt (plan : Plan β) (context : TickContext) (node : Nat) (run : BodyRun β σ) :
    Prop where
  own : ∃ system, plan.systems[node]? = some system ∧ run.id = system.id ∧
    system.body? = some run.body
  reply : ∃ lane shared, run.reply = Behaviour.run run.body context lane shared

theorem isRunAt_of_mem_runs {node : Nat} {system : PlannedSystem β}
    (hsystem : plan.systems[node]? = some system) {lane : Lane} {shared : σ}
    {run : BodyRun β σ} (hrun : run ∈ system.runs context lane shared) :
    plan.IsRunAt context node run := by
  rw [PlannedSystem.runs, Option.mem_toList, Option.map_eq_some_iff] at hrun
  obtain ⟨body, hbody, rfl⟩ := hrun
  exact ⟨⟨system, hsystem, rfl, hbody⟩, lane, shared, rfl⟩

theorem exists_of_getElem?_noted {node : Nat} {system : PlannedSystem (Noted β)}
    (hsystem : plan.noted.systems[node]? = some system) :
    ∃ plain, plan.systems[node]? = some plain ∧ plain.noted = system := by
  rw [getElem?_systems_noted] at hsystem
  exact Option.map_eq_some_iff.mp hsystem

theorem profiler_journalUpTo (plan : Plan β) (pool : Pool) (context : TickContext)
    (workspace : Workspace σ) (count : Nat) :
    (plan.upTo pool context workspace count).2.profiler =
      (plan.journalUpTo pool context workspace count).foldl BodyRun.recordIn
        workspace.profiler := by
  let P (last : Workspace (σ × List (BodyRun β σ))) : Prop :=
    last.profiler = last.shared.2.foldl BodyRun.recordIn workspace.profiler
  have hlast : P (plan.noted.upTo pool context (workspace.blank β) count).2 := by
    apply upTo_preserves
    · intro system hsystem lane before hbefore
      obtain ⟨plain, -, rfl⟩ := List.mem_map.mp hsystem
      obtain ⟨hnotes, hprofiler⟩ := plain.notes_work_noted context lane before
      change _ = List.foldl _ _ _
      rw [hnotes, hprofiler, List.foldl_append, hbefore]
    · rfl
  rw [upTo_eq_map]
  exact hlast

/-- The run times that a tick keeps are those of its runs. -/
theorem profiler_execute (plan : Plan β) (pool : Pool) (context : TickContext)
    (halt : Nat → σ → Bool) (workspace : Workspace σ) :
    (plan.execute pool context halt workspace).2.profiler =
      (plan.journal pool context halt workspace).foldl BodyRun.recordIn
        workspace.profiler := by
  rw [execute_eq_upTo, journal_eq_journalUpTo]
  exact plan.profiler_journalUpTo pool context workspace _

/-- Only systems at the given positions are run. -/
theorem exists_notes_dispatch (plan : Plan β) (pool : Pool) (context : TickContext)
    (nodes : List Nat) (workspace : Workspace (σ × List (BodyRun β σ))) :
    ∃ runs, (plan.noted.dispatch pool context nodes workspace).2.shared.2 =
        workspace.shared.2 ++ runs ∧
      ∀ run ∈ runs, ∃ node ∈ nodes, plan.IsRunAt context node run := by
  let P (last : Workspace (σ × List (BodyRun β σ))) : Prop :=
    ∃ runs, last.shared.2 = workspace.shared.2 ++ runs ∧
      ∀ run ∈ runs, ∃ node ∈ nodes, plan.IsRunAt context node run
  change P _
  apply dispatch_preserves
  · rintro node hnode _ hsystem lane before ⟨runs, hruns, hmem⟩
    obtain ⟨plain, hplain, rfl⟩ := exists_of_getElem?_noted hsystem
    refine ⟨runs ++ plain.runs context lane before.shared.1, ?_, ?_⟩
    · rw [(plain.notes_work_noted context lane before).1, hruns, List.append_assoc]
    · intro run hrun
      rcases List.mem_append.mp hrun with hold | hnew
      · exact hmem run hold
      · exact ⟨node, hnode, isRunAt_of_mem_runs hplain hnew⟩
  · exact ⟨[], (List.append_nil _).symm, fun _ hrun => absurd hrun List.not_mem_nil⟩

def hasBody (plan : Plan β) (node : Nat) : Bool :=
  plan.systems[node]?.any fun system => system.body?.isSome

/-- A unit makes one run, which its result comes from, or else fails for want of a body. -/
theorem runs_eq_singleton_or_nil {node : Nat} {system : PlannedSystem β}
    (hsystem : plan.systems[node]? = some system) (context : TickContext) (lane : Lane)
    (workspace : Workspace (σ × List (BodyRun β σ))) :
    (∃ run, system.runs context lane workspace.shared.1 = [run] ∧ plan.hasBody node = true ∧
        plan.IsRunAt context node run ∧ run.id = system.id ∧
          ((system.noted.work context).runOn lane workspace).1 = run.reply.ending.result) ∨
      system.runs context lane workspace.shared.1 = [] ∧ plan.hasBody node = false ∧
        ∃ causes,
          ((system.noted.work context).runOn lane workspace).1 = .error (.failed causes) := by
  rw [hasBody, hsystem, Option.any_some, PlannedSystem.runs, Work.runOn]
  cases hbody : system.body? with
  | none =>
      have hnone : system.noted.body? = none := by
        rw [PlannedSystem.noted, hbody, Option.map_none]
      rw [PlannedSystem.work, hnone]
      exact Or.inr ⟨rfl, rfl, _, rfl⟩
  | some body =>
      have hsome : system.noted.body? = some ⟨system.id, body⟩ := by
        rw [PlannedSystem.noted, hbody, Option.map_some]
      rw [PlannedSystem.work_of_eq_some hsome]
      exact Or.inl ⟨_, rfl, rfl, ⟨⟨system, hsystem, rfl, hbody⟩, lane, _, rfl⟩, rfl, rfl⟩

/-- Each system that is run and has its body has one run, which its result comes from.  Each
other one fails. -/
theorem exists_notes_runEach (context : TickContext) (lanes : Nat → Lane) {order : List Nat}
    (hbound : ∀ node ∈ order, node < plan.systems.length)
    (workspace : Workspace (σ × List (BodyRun β σ))) :
    ∃ runs, (plan.noted.runEach context lanes order workspace).2.shared.2 =
        workspace.shared.2 ++ runs ∧
      (runs.map fun run => some run.id) = ((order.filter plan.hasBody).map fun node =>
        plan.systems[node]?.map PlannedSystem.id) ∧
      (∀ run ∈ runs, ∃ node ∈ order, plan.IsRunAt context node run) ∧
      ∀ entry ∈ (plan.noted.runEach context lanes order workspace).1,
        (∃ run ∈ runs, plan.IsRunAt context entry.1 run ∧
          entry.2 = run.reply.ending.result) ∨
        plan.hasBody entry.1 = false ∧ ∃ causes, entry.2 = .error (.failed causes) := by
  induction order generalizing workspace with
  | nil =>
      exact ⟨[], (List.append_nil _).symm, rfl, fun _ hrun => absurd hrun List.not_mem_nil,
        fun _ hentry => absurd hentry List.not_mem_nil⟩
  | cons node order ih =>
      obtain ⟨system, hsystem⟩ : ∃ system, plan.systems[node]? = some system :=
        ⟨_, List.getElem?_eq_getElem (hbound node List.mem_cons_self)⟩
      have hnoted : plan.noted.systems[node]? = some system.noted := by
        rw [getElem?_systems_noted, hsystem, Option.map_some]
      obtain ⟨runs, hruns, hids, hown, hresults⟩ := ih
        (fun other hother => hbound other (List.mem_cons_of_mem _ hother))
        ((system.noted.work context).runOn (lanes node) workspace).2
      have hnotes := (system.notes_work_noted context (lanes node) workspace).1
      rw [runEach_cons hnoted]
      rcases runs_eq_singleton_or_nil hsystem context (lanes node) workspace with
        ⟨run, hone, hkept, hat, hid, hresult⟩ | ⟨hnone, hlost, hresult⟩
      · rw [hone] at hnotes
        refine ⟨run :: runs, ?_, ?_, ?_, ?_⟩
        · dsimp only
          rw [hruns, Work.runOn, hnotes, List.append_assoc, List.singleton_append]
        · rw [List.map_cons, List.filter_cons_of_pos hkept, List.map_cons, hids, hsystem,
            Option.map_some, hid]
        · rintro other (_ | ⟨_, hrest⟩)
          · exact ⟨node, List.mem_cons_self, hat⟩
          · obtain ⟨later, hlater, hat'⟩ := hown other hrest
            exact ⟨later, List.mem_cons_of_mem _ hlater, hat'⟩
        · rintro entry (_ | ⟨_, hrest⟩)
          · exact Or.inl ⟨run, List.mem_cons_self, hat, hresult⟩
          · rcases hresults entry hrest with ⟨other, hother, hmatch⟩ | hfailed
            · exact Or.inl ⟨other, List.mem_cons_of_mem _ hother, hmatch⟩
            · exact Or.inr hfailed
      · rw [hnone, List.append_nil] at hnotes
        refine ⟨runs, ?_, ?_, ?_, ?_⟩
        · dsimp only
          rw [hruns, Work.runOn, hnotes]
        · rw [hids, List.filter_cons_of_neg (Bool.eq_false_iff.mp hlost)]
        · intro run hrun
          obtain ⟨other, hother, hat⟩ := hown run hrun
          exact ⟨other, List.mem_cons_of_mem _ hother, hat⟩
        · rintro entry (_ | ⟨_, hrest⟩)
          · exact Or.inr ⟨hlost, hresult⟩
          · exact hresults entry hrest

/-- A pool that runs its units runs each system at the given positions once. -/
theorem exists_notes_dispatch_of_lane? {lane : Lane} (hlane : pool.lane? = some lane)
    {nodes : List Nat} (hnodup : nodes.Nodup)
    (hbodies : ∀ node ∈ nodes, ∃ system body, plan.systems[node]? = some system ∧
      system.body? = some body)
    (workspace : Workspace (σ × List (BodyRun β σ))) :
    ∃ runs, (plan.noted.dispatch pool context nodes workspace).2.shared.2 =
        workspace.shared.2 ++ runs ∧
      (runs.map fun run => some run.id).Perm
        (nodes.map fun node => plan.systems[node]?.map PlannedSystem.id) ∧
      ∀ entry ∈ (plan.noted.dispatch pool context nodes workspace).1, ∃ run ∈ runs,
        plan.IsRunAt context entry.1 run ∧ entry.2 = run.reply.ending.result := by
  have hbound : ∀ node ∈ nodes, node < plan.systems.length := by
    intro node hnode
    obtain ⟨system, -, hsystem, -⟩ := hbodies node hnode
    exact (List.getElem?_eq_some_iff.mp hsystem).1
  have hkept : ∀ node ∈ nodes, plan.hasBody node = true := by
    intro node hnode
    obtain ⟨system, body, hsystem, hbody⟩ := hbodies node hnode
    rw [hasBody, hsystem, Option.any_some, hbody, Option.isSome_some]
  have hbound' : ∀ node ∈ nodes, node < plan.noted.systems.length := by
    rwa [noted, List.length_map]
  obtain ⟨lanes, order, hperm, hshared, hlookup⟩ :=
    dispatch_eq_runEach hlane context hnodup hbound' workspace
  obtain ⟨runs, hruns, hids, -, hresults⟩ := exists_notes_runEach context lanes
    (fun node hnode => hbound node (hperm.mem_iff.mp hnode)) workspace
  refine ⟨runs, by rw [hshared, hruns], ?_, ?_⟩
  · rw [hids, List.filter_eq_self.mpr fun node hnode => hkept node (hperm.mem_iff.mp hnode)]
    exact hperm.map _
  · intro entry hentry
    have hkeys := map_fst_dispatch plan.noted pool context hbound' workspace
    have hfound : (plan.noted.dispatch pool context nodes workspace).1.lookup entry.1 =
        some entry.2 := lookup_eq_some_of_mem (by rwa [hkeys]) hentry
    rw [hlookup] at hfound
    rcases hresults entry (mem_of_lookup_eq_some hfound) with hran | ⟨hlost, -⟩
    · exact hran
    · have hnode : entry.1 ∈ nodes := by
        rw [← hkeys]
        exact List.mem_map_of_mem hentry
      rw [hkept entry.1 hnode] at hlost
      cases hlost

theorem node_eq_of_map_id_eq (hids : (plan.systems.map PlannedSystem.id).Nodup)
    {first second : Nat} {id : SystemId}
    (hfirst : plan.systems[first]?.map PlannedSystem.id = some id)
    (hsecond : plan.systems[second]?.map PlannedSystem.id = some id) : first = second := by
  rw [← List.getElem?_map] at hfirst hsecond
  obtain ⟨_, hfirst⟩ := List.getElem?_eq_some_iff.mp hfirst
  obtain ⟨_, hsecond⟩ := List.getElem?_eq_some_iff.mp hsecond
  exact hids.getElem_inj_iff.mp (hfirst.trans hsecond.symm)

/-- The identifiers at different positions are different. -/
theorem IsTidy.nodup_map_id {removed : List SystemId} (htidy : plan.IsTidy removed)
    {nodes : List Nat} (hnodup : nodes.Nodup)
    (hbound : ∀ node ∈ nodes, node < plan.systems.length) :
    (nodes.map fun node => plan.systems[node]?.map PlannedSystem.id).Nodup := by
  refine List.Nodup.map_on ?_ hnodup
  intro first hfirst second _ heq
  obtain ⟨id, hid⟩ : ∃ id, plan.systems[first]?.map PlannedSystem.id = some id := by
    rw [List.getElem?_eq_getElem (hbound first hfirst)]
    exact ⟨_, rfl⟩
  exact node_eq_of_map_id_eq htidy.nodup_ids hid (heq.symm.trans hid)

section Waves

variable {workspace : Workspace σ}

theorem resultsAt_eq (plan : Plan β) (pool : Pool) (context : TickContext)
    (workspace : Workspace σ) (index : Nat) :
    plan.resultsAt pool context workspace index =
      (plan.noted.dispatch pool context (plan.runnableAt pool context workspace index)
        (plan.noted.upTo pool context (workspace.blank β) index).2).1 := by
  rw [resultsAt, upTo_eq_map]
  exact congrArg Prod.fst (plan.dispatch_noted pool context _ _).symm

theorem journalUpTo_succ (plan : Plan β) (pool : Pool) (context : TickContext)
    (workspace : Workspace σ) (count : Nat) :
    plan.journalUpTo pool context workspace (count + 1) =
      (plan.noted.dispatch pool context (plan.runnableAt pool context workspace count)
        (plan.noted.upTo pool context (workspace.blank β) count).2).2.shared.2 := by
  cases hwave : plan.waves[count]? with
  | none =>
      have hwave' : plan.noted.waves[count]? = none := hwave
      rw [journalUpTo, upTo, runnableAt, hwave, hwave']
      rfl
  | some wave =>
      have hwave' : plan.noted.waves[count]? = some wave := hwave
      have hblocker : ∀ settled, plan.noted.blocker? settled = plan.blocker? settled := fun _ =>
        congrFun plan.blockerBy_noted _
      rw [journalUpTo, upTo_succ hwave', runnableAt, hwave, runWave, plan.upTo_eq_map]
      simp only [hblocker]
      rfl

/-- What is run is a member of a wave that nothing blocks. -/
theorem exists_of_mem_journalUpTo {count : Nat} {run : BodyRun β σ}
    (hrun : run ∈ plan.journalUpTo pool context workspace count) :
    ∃ index < count, ∃ node ∈ plan.runnableAt pool context workspace index,
      plan.IsRunAt context node run := by
  induction count with
  | zero => cases hrun
  | succ count ih =>
      obtain ⟨runs, hruns, hmem⟩ := plan.exists_notes_dispatch pool context
        (plan.runnableAt pool context workspace count)
        (plan.noted.upTo pool context (workspace.blank β) count).2
      rw [journalUpTo_succ, hruns] at hrun
      rcases List.mem_append.mp hrun with hold | hnew
      · obtain ⟨index, hlt, hindex⟩ := ih hold
        exact ⟨index, Nat.lt_succ_of_lt hlt, hindex⟩
      · exact ⟨count, Nat.lt_succ_self _, hmem run hnew⟩

/-- A system is not run before its wave, and not at all if its wave does not run it. -/
theorem IsTidy.id_ne_of_mem_journalUpTo {removed : List SystemId} (htidy : plan.IsTidy removed)
    {node index count : Nat} {id : SystemId} (hin : plan.IsIn node index)
    (hid : plan.systems[node]?.map PlannedSystem.id = some id)
    (hidle : index < count → node ∉ plan.runnableAt pool context workspace index) :
    ∀ run ∈ plan.journalUpTo pool context workspace count, run.id ≠ id := by
  rintro run hrun rfl
  obtain ⟨found, hlt, other, hother, ⟨system, hsystem, hown, -⟩, -⟩ :=
    exists_of_mem_journalUpTo hrun
  have hother' : plan.systems[other]?.map PlannedSystem.id = some run.id := by
    rw [hsystem, Option.map_some, hown]
  obtain rfl := node_eq_of_map_id_eq htidy.nodup_ids hid hother'
  obtain rfl := htidy.eq_index hin (mem_runnableAt.mp hother).1
  exact hidle hlt hother

theorem IsTidy.nodup_runnableAt {removed : List SystemId} (htidy : plan.IsTidy removed)
    (pool : Pool) (context : TickContext) (workspace : Workspace σ) (index : Nat) :
    (plan.runnableAt pool context workspace index).Nodup := by
  rw [runnableAt]
  cases hwave : plan.waves[index]? with
  | none => exact List.nodup_nil
  | some wave => exact (htidy.nodup_nodes wave (List.mem_of_getElem? hwave)).filter _

variable {systems : List (Descriptor β)} {tags : TagOrder} {generation : Nat}
variable (hbuild : build systems tags generation = .ok plan)
include hbuild

theorem exists_body_of_isIn {node index : Nat} (hin : plan.IsIn node index) :
    ∃ system body, plan.systems[node]? = some system ∧ system.body? = some body := by
  have hlt := IsIn.lt_length hbuild hin
  rw [getElem?_systems_of_build hbuild, List.getElem?_eq_getElem hlt]
  exact ⟨_, _, rfl, rfl⟩

theorem nodup_runnableAt (pool : Pool) (context : TickContext) (workspace : Workspace σ)
    (index : Nat) :
    (plan.runnableAt pool context workspace index).Nodup := by
  rw [runnableAt]
  cases hwave : plan.waves[index]? with
  | none => exact List.nodup_nil
  | some wave => exact (nodup_nodes_of_build hbuild (List.mem_of_getElem? hwave)).filter _

variable {lane : Lane} (hlane : pool.lane? = some lane)
include hlane

/-- Every result of a wave comes from a run of the system that it is the result of. -/
theorem exists_mem_journalUpTo {count index : Nat} (hlt : index < count)
    {entry : Nat × TaskResult} (hentry : entry ∈ plan.resultsAt pool context workspace index) :
    ∃ run ∈ plan.journalUpTo pool context workspace count,
      plan.IsRunAt context entry.1 run ∧ entry.2 = run.reply.ending.result := by
  induction count with
  | zero => exact absurd hlt (Nat.not_lt_zero _)
  | succ count ih =>
      obtain ⟨runs, hruns, -, hresults⟩ := exists_notes_dispatch_of_lane? hlane
        (nodup_runnableAt hbuild pool context workspace count)
        (fun node hnode => exists_body_of_isIn hbuild (mem_runnableAt.mp hnode).1)
        (plan.noted.upTo pool context (workspace.blank β) count).2
      rw [journalUpTo_succ, hruns]
      rcases Nat.lt_succ_iff_lt_or_eq.mp hlt with hearlier | rfl
      · obtain ⟨run, hrun, hmatch⟩ := ih hearlier
        exact ⟨run, List.mem_append_left _ hrun, hmatch⟩
      · rw [resultsAt_eq] at hentry
        obtain ⟨run, hrun, hmatch⟩ := hresults entry hentry
        exact ⟨run, List.mem_append_right _ hrun, hmatch⟩

/-- No system is run twice. -/
theorem nodup_map_id_journalUpTo (hids : (systems.map Descriptor.id).Nodup) (count : Nat) :
    ((plan.journalUpTo pool context workspace count).map BodyRun.id).Nodup := by
  have htidy := isTidy_of_build hbuild hids
  induction count with
  | zero => exact List.nodup_nil
  | succ count ih =>
      obtain ⟨runs, hruns, hperm, -⟩ := exists_notes_dispatch_of_lane? hlane
        (nodup_runnableAt hbuild pool context workspace count)
        (fun node hnode => exists_body_of_isIn hbuild (mem_runnableAt.mp hnode).1)
        (plan.noted.upTo pool context (workspace.blank β) count).2
      rw [journalUpTo_succ, hruns, List.map_append, List.nodup_append']
      refine ⟨ih, ?_, ?_⟩
      · have hsome : (runs.map fun run => some run.id).Nodup := by
          rw [hperm.nodup_iff]
          exact htidy.nodup_map_id (nodup_runnableAt hbuild pool context workspace count)
            fun node hnode => htidy.lt_length (mem_runnableAt.mp hnode).1
        exact List.Nodup.of_map some (by rwa [List.map_map])
      · intro id hold hnew
        obtain ⟨run, hrun, rfl⟩ := List.mem_map.mp hold
        have hmem : some run.id ∈ runs.map fun run => some run.id := by
          obtain ⟨other, hother, heq⟩ := List.mem_map.mp hnew
          exact List.mem_map.mpr ⟨other, hother, congrArg some heq⟩
        obtain ⟨node, hnode, hid⟩ := List.mem_map.mp (hperm.mem_iff.mp hmem)
        exact htidy.id_ne_of_mem_journalUpTo (mem_runnableAt.mp hnode).1 hid
          (fun hlt => absurd hlt (Nat.lt_irrefl count)) run hrun rfl

end Waves

end Plan

end Notes

end TickWaves
