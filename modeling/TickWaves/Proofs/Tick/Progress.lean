import Mathlib.Data.Prod.Lex
import Mathlib.Order.WellFounded
import TickWaves.Proofs.Tick.Accounting

/-!
# A tick on threads comes to its end

As long as a tick is not over, some thread can take a step (`exists_step_of_reachable`): if
the coordinator waits for a result, then its unit is with the crew, and a crew that holds a
unit does not rest.  Every step makes the rank of the tick smaller, which is first what is
ahead of the coordinator and then what the threads still have to do for the wave
(`Step.rank_lt`), so no run goes on for ever (`exists_not_step`).
-/

namespace TickWaves

open Relation

universe u

section Crew

variable {υ : Type u} {ends : υ → Ending → Bool → Prop} {crew crew' : Crew υ}
variable {event? : Option (Event υ)}

/-- The pool is open, and it has workers, of which none has ended. -/
structure Crew.IsStaffed (crew : Crew υ) : Prop where
  isOpen : crew.isOpen = true
  manned : crew.workers ≠ []
  stays : Worker.gone ∉ crew.workers

def Worker.effort : Worker υ → Nat
  | holding _ => 4
  | running _ => 3
  | reporting _ _ => 2
  | _ => 0

/-- The number of steps until all results are fetched. -/
def Crew.effort (crew : Crew υ) : Nat :=
  5 * crew.queue.length + (crew.workers.map Worker.effort).sum + crew.replies.length

namespace Crew

theorem isStaffed_ofSize {size : Nat} (hsize : 0 < size) : (ofSize size : Crew υ).IsStaffed where
  isOpen := rfl
  manned := by
    rw [ofSize, Ne, List.replicate_eq_nil_iff]
    exact Nat.ne_of_gt hsize
  stays := by
    intro hgone
    cases List.eq_of_mem_replicate hgone

theorem IsStaffed.replace (hstaffed : crew.IsStaffed) {left right : List (Worker υ)}
    {worker worker' : Worker υ} (hworkers : crew.workers = left ++ worker :: right)
    (hworkers' : crew'.workers = left ++ worker' :: right) (hopen : crew'.isOpen = crew.isOpen)
    (hne : worker' ≠ .gone) : crew'.IsStaffed where
  isOpen := hopen.trans hstaffed.isOpen
  manned := by
    rw [hworkers']
    exact List.append_ne_nil_of_right_ne_nil _ (List.cons_ne_nil _ _)
  stays := by
    have hstays := hstaffed.stays
    rw [hworkers, List.mem_append, List.mem_cons] at hstays
    rw [hworkers', List.mem_append, List.mem_cons]
    rintro (hleft | heq | hright)
    · exact hstays (Or.inl hleft)
    · exact hne heq.symm
    · exact hstays (Or.inr (Or.inr hright))

theorem Step.isStaffed (hstep : Step ends crew event? crew') (hstaffed : crew.IsStaffed) :
    crew'.IsStaffed := by
  cases hstep with
  | take _ hworkers => exact hstaffed.replace hworkers rfl rfl (by rintro ⟨⟩)
  | begin hworkers => exact hstaffed.replace hworkers rfl rfl (by rintro ⟨⟩)
  | finish hworkers _ => exact hstaffed.replace hworkers rfl rfl (by rintro ⟨⟩)
  | reply hworkers => exact hstaffed.replace hworkers rfl rfl (by rintro ⟨⟩)
  | leave hclosed _ _ => exact absurd (hclosed.symm.trans hstaffed.isOpen) Bool.false_ne_true

/-- A worker can go on, or all of them wait and no job is queued. -/
theorem IsStaffed.exists_step_or (hstaffed : crew.IsStaffed)
    (hends : ∀ unit, ∃ ending cancels, ends unit ending cancels) :
    (∃ event? crew', Step ends crew event? crew') ∨
      crew.queue = [] ∧ ∀ worker ∈ crew.workers, worker = .idle := by
  by_cases hidle : ∀ worker ∈ crew.workers, worker = .idle
  · obtain ⟨worker, others, hworkers⟩ := List.exists_cons_of_ne_nil hstaffed.manned
    have hfirst : crew.workers = [] ++ .idle :: others := by
      rw [hworkers, hidle worker (hworkers ▸ List.mem_cons_self), List.nil_append]
    cases hqueue : crew.queue with
    | nil => exact Or.inr ⟨rfl, hidle⟩
    | cons job queue => exact Or.inl ⟨_, _, .take hqueue hfirst⟩
  · left
    push Not at hidle
    obtain ⟨worker, hmem, hbusy⟩ := hidle
    obtain ⟨left, right, hworkers⟩ := List.append_of_mem hmem
    cases worker with
    | idle => exact absurd rfl hbusy
    | holding job => exact ⟨_, _, .begin hworkers⟩
    | running job =>
        obtain ⟨ending, cancels, hend⟩ := hends job.unit
        exact ⟨_, _, .finish hworkers hend⟩
    | reporting job result => exact ⟨_, _, .reply hworkers⟩
    | gone => exact absurd hmem hstaffed.stays

/-- The queue is empty, and every worker waits or has ended. -/
structure Rests (crew : Crew υ) : Prop where
  queue : crew.queue = []
  workers : ∀ worker ∈ crew.workers, worker = .idle ∨ worker = .gone

/-- The jobs of a pool that rests are those that have their results. -/
theorem Rests.weigh_eq {M : Type*} [AddCommMonoid M] (hrests : crew.Rests)
    (waiting running : Job υ → M) (replied : Job υ × TaskResult → M) :
    crew.weigh waiting running replied = (crew.replies.map replied).sum := by
  rw [weigh, hrests.queue, List.map_nil, List.sum_nil, zero_add, List.sum_eq_zero, zero_add]
  intro weight hweight
  obtain ⟨worker, hworker, rfl⟩ := List.mem_map.mp hweight
  rcases hrests.workers worker hworker with rfl | rfl
  · rfl
  · rfl

/-- Every job of a pool that rests has its result. -/
theorem Rests.jobs_eq (hrests : crew.Rests) :
    crew.jobs = (crew.replies.map Prod.fst : List (Job υ)) := by
  rw [jobs, hrests.weigh_eq]
  induction crew.replies with
  | nil => rfl
  | cons reply replies ih =>
      rw [List.map_cons, List.sum_cons, ih, List.map_cons, ← Multiset.cons_coe,
        Multiset.singleton_add]

theorem Step.effort_lt (hstep : Step ends crew event? crew') (hopen : crew.isOpen = true) :
    crew'.effort < crew.effort := by
  cases hstep with
  | take hqueue hworkers =>
      simp only [effort, hqueue, hworkers, List.map_append, List.map_cons, List.sum_append,
        List.sum_cons, List.length_cons, Worker.effort]
      omega
  | begin hworkers =>
      simp only [effort, hworkers, List.map_append, List.map_cons, List.sum_append,
        List.sum_cons, Worker.effort]
      omega
  | finish hworkers _ =>
      simp only [effort, hworkers, List.map_append, List.map_cons, List.sum_append,
        List.sum_cons, Worker.effort]
      omega
  | reply hworkers =>
      simp only [effort, hworkers, List.map_append, List.map_cons, List.sum_append,
        List.sum_cons, List.length_append, List.length_singleton, Worker.effort]
      omega
  | leave hclosed _ _ => exact absurd (hclosed.symm.trans hopen) Bool.false_ne_true

end Crew

end Crew

namespace Interleaving

variable {β : Type u} {plan : Plan β} {conduct : Conduct} {state state' : State}

/-- The crew can work, and a wave that has begun is one of the plan. -/
structure State.IsManned (plan : Plan β) (state : State) : Prop where
  staffed : state.crew.IsStaffed
  within : state.phase.isOpen = true → state.wavesRun < plan.waves.length

theorem State.isManned_start (plan : Plan β) {size : Nat} (hsize : 0 < size) (token : Bool) :
    (State.start size token).IsManned plan where
  staffed := Crew.isStaffed_ofSize hsize
  within hopen := absurd hopen Bool.false_ne_true

theorem Step.isManned (hstep : Step plan conduct state state') (hmanned : state.IsManned plan) :
    state'.IsManned plan := by
  obtain ⟨hstaffed, hwithin⟩ := hmanned
  have hsame : ∀ {phase : Phase}, state.phase = phase → phase.isOpen = true →
      state.wavesRun < plan.waves.length := by
    rintro phase rfl hopen
    exact hwithin hopen
  cases hstep with
  | stop _ _ _ => exact ⟨hstaffed, fun hopen => absurd hopen Bool.false_ne_true⟩
  | done _ _ => exact ⟨hstaffed, fun hopen => absurd hopen Bool.false_ne_true⟩
  | start _ hwave _ =>
      exact ⟨hstaffed, fun _ => (List.getElem?_eq_some_iff.mp hwave).1⟩
  | hand hphase =>
      exact ⟨⟨hstaffed.isOpen, hstaffed.manned, hstaffed.stays⟩, fun _ => hsame hphase rfl⟩
  | turn hphase => exact ⟨hstaffed, fun _ => hsame hphase rfl⟩
  | enter hphase => exact ⟨hstaffed, fun _ => hsame hphase rfl⟩
  | leave hphase _ => exact ⟨hstaffed, fun _ => hsame hphase rfl⟩
  | wait hphase => exact ⟨hstaffed, fun _ => hsame hphase rfl⟩
  | fetch _ _ _ _ => exact ⟨⟨hstaffed.isOpen, hstaffed.manned, hstaffed.stays⟩, hwithin⟩
  | settle _ _ => exact ⟨hstaffed, fun hopen => absurd hopen Bool.false_ne_true⟩
  | work hcrew => exact ⟨hcrew.isStaffed hstaffed, hwithin⟩
  | interrupt _ => exact ⟨hstaffed, hwithin⟩

/-- As long as a tick is not over, some thread can take a step. -/
theorem State.IsManned.exists_step (hmanned : state.IsManned plan) (hlinked : state.IsLinked)
    (hends : ∀ node, ∃ ending cancels, conduct.ends node ending cancels)
    (hphase : ∀ isCancelled, state.phase ≠ .finished isCancelled) :
    ∃ state', Step plan conduct state state' := by
  cases hnow : state.phase with
  | gate =>
      cases hwave : plan.waves[state.wavesRun]? with
      | none => exact ⟨_, .done hnow hwave⟩
      | some wave =>
          cases htoken : state.token with
          | true => exact ⟨_, .stop hnow hwave htoken⟩
          | false => exact ⟨_, .start hnow hwave htoken⟩
  | submitting pooled bound =>
      cases pooled with
      | nil => exact ⟨_, .turn hnow⟩
      | cons node pooled => exact ⟨_, .hand hnow⟩
  | turning bound =>
      cases bound with
      | nil => exact ⟨_, .wait hnow⟩
      | cons node bound => exact ⟨_, .enter hnow⟩
  | inside node bound =>
      obtain ⟨ending, cancels, hend⟩ := hends node
      exact ⟨_, .leave hnow hend⟩
  | waiting =>
      cases hhandles : state.handles with
      | nil => exact ⟨_, .settle hnow hhandles⟩
      | cons job handles =>
          rcases hmanned.staffed.exists_step_or hends with ⟨event?, crew, hcrew⟩ | ⟨hqueue, hidle⟩
          · exact ⟨_, .work hcrew⟩
          · -- the crew rests, so the result that is next in turn is there
            have hjobs := hlinked.jobs
            have hrests : state.crew.Rests :=
              ⟨hqueue, fun worker hworker => Or.inl (hidle worker hworker)⟩
            rw [hrests.jobs_eq, hhandles] at hjobs
            have hjob : job ∈ state.crew.replies.map Prod.fst := by
              rw [(Multiset.coe_eq_coe.mp hjobs).mem_iff]
              exact List.mem_cons_self
            obtain ⟨⟨other, result⟩, hreply, rfl⟩ := List.mem_map.mp hjob
            obtain ⟨left, right, hreplies⟩ := List.append_of_mem hreply
            exact ⟨_, .fetch hnow hhandles hreplies rfl⟩
  | finished isCancelled => exact absurd hnow (hphase isCancelled)

def Phase.effort : Phase → Nat
  | submitting pooled bound => 6 * pooled.length + 2 * bound.length + 2
  | turning bound => 2 * bound.length + 1
  | inside _ bound => 2 * bound.length + 2
  | _ => 0

def State.ahead (plan : Plan β) (state : State) : Nat :=
  2 * (plan.waves.length - state.wavesRun) +
    match state.phase with
    | .gate => 1
    | _ => 0

/-- What is left to do: first what is ahead, and then the efforts for the wave. -/
def State.rank (plan : Plan β) (state : State) : Nat ×ₗ Nat :=
  toLex (state.ahead plan, state.crew.effort + state.phase.effort)

theorem State.rank_lt_of_ahead (hlt : state'.ahead plan < state.ahead plan) :
    state'.rank plan < state.rank plan :=
  Prod.Lex.toLex_lt_toLex.mpr (Or.inl hlt)

theorem State.rank_lt_of_effort (hahead : state'.ahead plan = state.ahead plan)
    (hlt : state'.crew.effort + state'.phase.effort < state.crew.effort + state.phase.effort) :
    state'.rank plan < state.rank plan :=
  Prod.Lex.toLex_lt_toLex.mpr (Or.inr ⟨hahead, hlt⟩)

/-- Every step is a step towards the end. -/
theorem Step.rank_lt (hstep : Step plan conduct state state') (hmanned : state.IsManned plan)
    (hquiet : ¬ conduct.interrupts) : state'.rank plan < state.rank plan := by
  cases hstep with
  | stop hphase _ _ =>
      apply State.rank_lt_of_ahead
      simp only [State.ahead, hphase]
      omega
  | done hphase _ =>
      apply State.rank_lt_of_ahead
      simp only [State.ahead, hphase]
      omega
  | @start wave hphase _ _ =>
      apply State.rank_lt_of_ahead
      have hopen : (state.opened plan wave.nodes).phase.isOpen = true :=
        Phase.isOpen_opening plan _
      simp only [State.ahead, hphase]
      split
      case h_1 hgate =>
        rw [hgate] at hopen
        exact absurd hopen Bool.false_ne_true
      case h_2 => exact Nat.lt_succ_self _
  | hand hphase =>
      apply State.rank_lt_of_effort
      · simp only [State.ahead, hphase]
      · simp only [hphase, Phase.effort, Crew.effort, Crew.submit, List.length_append,
          List.length_cons, List.length_nil]
        omega
  | turn hphase =>
      apply State.rank_lt_of_effort
      · simp only [State.ahead, hphase]
      · simp only [hphase, Phase.effort, List.length_nil]
        omega
  | enter hphase =>
      apply State.rank_lt_of_effort
      · simp only [State.ahead, State.record, hphase]
      · simp only [State.record, hphase, Phase.effort, List.length_cons]
        omega
  | leave hphase _ =>
      apply State.rank_lt_of_effort
      · simp only [State.ahead, State.record, hphase]
      · simp only [State.record, hphase, Phase.effort]
        omega
  | wait hphase =>
      apply State.rank_lt_of_effort
      · simp only [State.ahead, hphase]
      · simp only [hphase, Phase.effort]
        omega
  | fetch hphase _ hreplies _ =>
      apply State.rank_lt_of_effort
      · rfl
      · simp only [Crew.effort, hreplies, List.length_append, List.length_cons]
        omega
  | settle hphase _ =>
      apply State.rank_lt_of_ahead
      have hlt : state.wavesRun < plan.waves.length := by
        apply hmanned.within
        rw [hphase]
        rfl
      simp only [State.ahead, State.closed, hphase]
      omega
  | work hcrew =>
      apply State.rank_lt_of_effort
      · rfl
      · exact Nat.add_lt_add_right (hcrew.effort_lt hmanned.staffed.isOpen) _
  | interrupt hinterrupts => exact absurd hinterrupts hquiet

variable {size : Nat} {token : Bool}

theorem Reachable.isLinked (hreach : Reachable plan conduct size token state) :
    state.IsLinked := by
  induction hreach with
  | refl => exact isLinked_start size token
  | tail _ hstep ih => exact hstep.isLinked ih

theorem Reachable.isManned (hsize : 0 < size) (hreach : Reachable plan conduct size token state) :
    state.IsManned plan := by
  induction hreach with
  | refl => exact State.isManned_start plan hsize token
  | tail _ hstep ih => exact hstep.isManned ih

/-- A tick on threads does not get stuck. -/
theorem exists_step_of_reachable (hsize : 0 < size)
    (hends : ∀ node, ∃ ending cancels, conduct.ends node ending cancels)
    (hreach : Reachable plan conduct size token state)
    (hphase : ∀ isCancelled, state.phase ≠ .finished isCancelled) :
    ∃ state', Step plan conduct state state' :=
  (hreach.isManned hsize).exists_step hreach.isLinked hends hphase

/-- A tick on threads does not go on for ever. -/
theorem exists_not_step (hsize : 0 < size) (hquiet : ¬ conduct.interrupts) (run : Nat → State)
    (hstart : run 0 = State.start size token) :
    ∃ moment, ¬ Step plan conduct (run moment) (run (moment + 1)) := by
  by_contra! hsteps
  have hreach : ∀ moment, Reachable plan conduct size token (run moment) := by
    intro moment
    induction moment with
    | zero =>
        rw [hstart]
        exact .refl
    | succ moment ih => exact ih.tail (hsteps moment)
  obtain ⟨moment, hstuck⟩ :=
    WellFounded.not_rel_apply_succ (r := (· < ·)) fun moment => (run moment).rank plan
  exact hstuck ((hsteps moment).rank_lt ((hreach moment).isManned hsize) hquiet)

end Interleaving

end TickWaves
