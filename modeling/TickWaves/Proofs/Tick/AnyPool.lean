import TickWaves.Proofs.Tick.Calls

/-!
# Every body is run once, and its result goes to its system

A pool either runs a system that it accepted or gives it up, and whichever it does and
whenever, a dispatch returns one result for each of its systems, and the status of a system
says whether its body was run (`Plan.CreditsRuns`).  The pools of the library are among them: a
tick on one of these returns, decides and runs what a tick on any pool may
(`exists_course_upTo`).
-/

namespace TickWaves.Plan

open Delegation

universe u v

variable {β : Type u}

/-- Dispatches and ticks of a plan on any pool, and those on the pools of the library.  Bodies
may end as they like, and the tick may be stopped before any wave. -/
structure CreditsRuns (σ : Type v) [Behaviour β σ] (plan : Plan β) : Prop where
  /-- A dispatch that is not done can go on, whatever the pool did so far. -/
  goesOn : ∀ {nodes : List Nat} {state : State}, Reachable plan nodes state → ¬ state.IsDone →
    ∃ state', Step state state'
  /-- It does not go on for ever. -/
  ends : ∀ run : Nat → State, ∃ moment, ¬ Step (run moment) (run (moment + 1))
  /-- The systems that a wave runs are in ascending order. -/
  ascending : ∀ wave ∈ plan.waves, ∀ settled,
    (plan.unblocked settled wave.nodes).Pairwise (· < ·)
  /-- A dispatch returns one result for every system, in ascending order. -/
  returns : ∀ {nodes : List Nat} {state : State}, nodes.Pairwise (· < ·) →
    Reachable plan nodes state → state.IsDone → (state.results plan nodes).map Prod.fst = nodes
  /-- Each is the result of the one run of that system, or the system was given up. -/
  earned : ∀ {nodes : List Nat} {state : State}, nodes.Pairwise (· < ·) →
    Reachable plan nodes state → state.IsDone → ∀ entry ∈ state.results plan nodes,
      Earned plan nodes entry.1 (sightings state.log entry.1) entry.2
  /-- However the waves before went, the next one can be run. -/
  comesOn : ∀ {count : Nat} {settled : List Settled} {log : List Sign},
    Course plan count settled log → count < plan.waves.length →
      ∃ settled' log', Course plan (count + 1) settled' log'
  /-- If a tick is stopped now or over, then the status of each system says whether its body
  was run. -/
  agrees : ∀ {count : Nat} {settled : List Settled} {log : List Sign},
    Course plan count settled log → ∀ node < plan.systems.length,
      Agrees (sightings log node) node ((Settled.fates settled node).getD .cancelled)
  /-- What is handed to the pool shares the run of its wave with others and is not bound. -/
  handed : ∀ {count : Nat} {settled : List Settled} {log : List Sign},
    Course plan count settled log → ∀ node, .handed node ∈ log ↔
      ∃ index < count, ∃ wave, plan.waves[index]? = some wave ∧
        node ∈ plan.unblocked settled wave.nodes ∧
          plan.IsPooled (plan.unblocked settled wave.nodes) node
  /-- What is not handed to the pool runs on the coordinating thread. -/
  kept : ∀ {count : Nat} {settled : List Settled} {log : List Sign},
    Course plan count settled log → ∀ node lane, .began node lane ∈ log →
      .handed node ∉ log → lane = .coordinator
  /-- A dispatch on a pool of the library returns and runs what one on any pool may. -/
  dispatches : ∀ (pool : Pool) (context : TickContext) {nodes : List Nat},
    nodes.Pairwise (· < ·) → (∀ node ∈ nodes, node < plan.systems.length) →
      ∀ workspace : Workspace σ, ∃ state, Reachable plan nodes state ∧ state.IsDone ∧
        state.results plan nodes = (plan.dispatch pool context nodes workspace).1 ∧
        Tells plan context state.log
          (plan.noted.dispatch pool context nodes (workspace.blank β)).2.shared.2
  /-- A tick on a pool of the library reports and runs what one on any pool may. -/
  executes : ∀ (pool : Pool) (context : TickContext) (halt : Nat → σ → Bool)
    (workspace : Workspace σ), ∃ settled log,
      let report := (plan.execute pool context halt workspace).1
      Course plan report.wavesRun settled log ∧
        report.isCancelled = decide (report.wavesRun < plan.waves.length) ∧
        report.outcomes.map Outcome.verdict = (plan.outcomes settled).map Outcome.verdict ∧
        Tells plan context log (plan.journal pool context halt workspace)

section Tick

variable {σ : Type v} [Behaviour β σ] {systems : List (Descriptor β)} {tags : TagOrder}
variable {generation : Nat} {plan : Plan β}
variable (hbuild : build systems tags generation = .ok plan)
include hbuild

theorem hasBody_of_build {node : Nat} (hnode : node < plan.systems.length) :
    plan.hasBody node = true := by
  rw [length_systems_of_build hbuild] at hnode
  rw [hasBody, getElem?_systems_of_build hbuild, List.getElem?_eq_getElem hnode]
  rfl

/-- The first waves of a tick on a pool of the library decide and run what those on any pool
may. -/
theorem exists_course_upTo (pool : Pool) (context : TickContext) (workspace : Workspace σ)
    {count : Nat} (hle : count ≤ plan.waves.length) :
    ∃ log, Course plan count
        ((plan.upTo pool context workspace count).1.map Settled.untimed) log ∧
      Tells plan context log (plan.journalUpTo pool context workspace count) := by
  induction count with
  | zero => exact ⟨[], .start, ⟨.nil, .nil⟩⟩
  | succ count ih =>
      obtain ⟨log, hcourse, htells⟩ := ih (Nat.le_of_succ_le hle)
      have hwave := List.getElem?_eq_getElem hle
      generalize plan.waves[count] = wave at hwave
      let settled := (plan.upTo pool context workspace count).1
      have hrunnable : plan.runnableAt pool context workspace count =
          plan.unblocked (settled.map Settled.untimed) wave.nodes := by
        rw [runnableAt, hwave, unblocked, blocker?_untimed]
      have hmem := List.mem_of_getElem? hwave
      have hascending : (plan.runnableAt pool context workspace count).Pairwise (· < ·) := by
        rw [hrunnable]
        exact (pairwise_lt_nodes_of_build hbuild hmem).filter _
      have hheld : ∀ node ∈ plan.runnableAt pool context workspace count,
          plan.hasBody node = true := by
        intro node hnode
        rw [hrunnable] at hnode
        exact hasBody_of_build hbuild
          (node_lt_length_of_build hbuild hmem (mem_unblocked.mp hnode).1)
      obtain ⟨state, runs, hreach, hdone, hresults, hshared, htold⟩ :=
        isOnAnyPool_dispatch pool context hascending hheld
          (plan.noted.upTo pool context (workspace.blank β) count).2
      rw [← resultsAt_eq, resultsAt] at hresults
      rw [← journalUpTo_succ] at hshared
      refine ⟨log ++ state.log, ?_, hshared ▸ htells.append htold⟩
      have hsettled : (plan.upTo pool context workspace (count + 1)).1.map Settled.untimed =
          state.settle plan (settled.map Settled.untimed) wave.nodes := by
        rw [runnableAt, hwave] at hresults
        rw [upTo_succ hwave, map_untimed_runWave, State.settle, skip?_untimed, ← hrunnable,
          runnableAt, hwave, hresults]
        rfl
      rw [hsettled]
      rw [hrunnable] at hreach
      exact .wave hcourse hwave hreach hdone

/-- Whatever the pool does, every body is run as the report says, and every result goes to the
system that it is of. -/
theorem creditsRuns_of_build (σ : Type v) [Behaviour β σ] : plan.CreditsRuns σ where
  goesOn hreach hdone := hreach.exists_step hdone
  ends := exists_not_step
  ascending wave hwave _ := (pairwise_lt_nodes_of_build hbuild hwave).filter _
  returns hascending hreach hdone := hreach.map_fst_results hdone hascending
  earned hascending hreach hdone _ hentry :=
    hreach.earned hdone (hascending.imp Nat.ne_of_lt) hentry
  comesOn hcourse hlt := hcourse.exists_next hlt
  agrees hcourse _ hnode := by
    rw [length_systems_of_build hbuild] at hnode
    exact hcourse.agrees hbuild hnode
  handed hcourse := hcourse.handed_iff hbuild
  kept hcourse _ _ := hcourse.lane_eq hbuild
  dispatches pool context nodes hascending hbound workspace := by
    obtain ⟨state, runs, hreach, hdone, hresults, hshared, htells⟩ :=
      isOnAnyPool_dispatch pool context hascending
        (fun node hnode => hasBody_of_build hbuild (hbound node hnode)) (workspace.blank β)
    rw [hshared]
    refine ⟨state, hreach, hdone, hresults.trans ?_, htells⟩
    exact congrArg Prod.fst (plan.dispatch_noted pool context nodes (workspace.blank β))
  executes pool context halt workspace := by
    have hle : plan.firstHalt pool context halt workspace ≤ plan.waves.length := firstHalt_le
    obtain ⟨log, hcourse, htells⟩ := exists_course_upTo hbuild pool context workspace hle
    rw [execute_eq_upTo, journal_eq_journalUpTo]
    refine ⟨_, log, hcourse, rfl, ?_, htells⟩
    rw [map_verdict_outcomes, map_verdict_outcomes, Settled.fates_untimed]

end Tick

/-- A loader that fails, a reader that is skipped, and two more that share their waves. -/
theorem creditsRuns_of_build_chores :
    ∃ plan, build chores TagOrder.empty 1 = .ok plan ∧ plan.CreditsRuns (Store Nat) := by
  have hsome : (build chores TagOrder.empty 1).isOk = true := by decide +kernel
  cases hbuild : build chores TagOrder.empty 1 with
  | error dependency =>
      rw [hbuild] at hsome
      cases hsome
  | ok plan => exact ⟨plan, rfl, creditsRuns_of_build hbuild (Store Nat)⟩

end TickWaves.Plan
