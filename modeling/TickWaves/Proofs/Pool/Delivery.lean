import TickWaves.Proofs.Pool.InTurn

/-!
# A pool of threads loses and duplicates nothing

Whatever its owner asks for and however the workers interleave, every unit that is handed in
is run once, by one worker, and its result is the one that its handle gives.  As long as the
pool is open, every worker gets free for the next unit; when the drop of the pool is over,
every unit has been run (`ThreadPool.losesNothing_of_reachable`).  Without new calls a pool
comes to rest after finitely many steps (`Move.rank_lt`), and then every unit has been run
too (`State.IsSound.rests`).
-/

namespace TickWaves.ThreadPool

open Relation Interleaving

/-- What the bodies have done agrees with where the units are. -/
structure State.IsCounted (state : State) : Prop where
  total : state.tally.total = Multiset.range state.crew.nextSlot
  fresh : state.tally.unstarted + begun state.events = Multiset.range state.crew.nextSlot
  balance : (begun state.events : Multiset Nat) = ended state.events + state.tally.underway
  answered : ∀ answer ∈ state.tally.answers, ∃ ending cancels,
    Event.ended answer.1 ending cancels ∈ state.events ∧ answer.2 = ending.result

/-- A body ends on the worker on which it began, and in a way in which it may end. -/
structure State.IsTraced (ends : Nat → Ending → Bool → Prop) (state : State) : Prop where
  running : ∀ worker job, state.crew.workers[worker]? = some (.running job) →
    (worker, .began job.unit) ∈ state.log
  ended : ∀ worker unit ending cancels, (worker, .ended unit ending cancels) ∈ state.log →
    (worker, .began unit) ∈ state.log ∧ ends unit ending cancels

variable {ends : Nat → Ending → Bool → Prop} {state state' : State}

section Counted

theorem isCounted_start (requested : Nat) (label : String) :
    (State.start requested label).IsCounted := by
  have htally : (State.start requested label).tally = 0 := by
    simp [State.tally, State.start, State.results, Phase.results, Crew.tally, Crew.ofSize,
      Crew.weigh, Tally.ofAnswers]
    rfl
  constructor
  · rw [htally]
    rfl
  · rw [htally]
    rfl
  · rw [htally]
    rfl
  · rw [htally]
    exact fun _ hanswer => absurd hanswer (Multiset.notMem_zero _)

theorem Effect.isCounted (heffect : Effect state state') (hcounted : state.IsCounted) :
    state'.IsCounted := by
  cases heffect with
  | moved event? hmoves hevents hslot =>
      constructor
      · rw [hmoves.total_eq, hslot]
        exact hcounted.total
      · rw [hevents, unstarted_add_begun_eq hmoves, hslot]
        exact hcounted.fresh
      · rw [hevents]
        exact begun_eq_ended_add hmoves hcounted.balance
      · intro answer hanswer
        rw [hevents]
        exact exists_ended_of_mem_answers hmoves hcounted.answered hanswer
  | submitted htally hevents hslot =>
      have hnew : ∀ units : Multiset Nat, units = Multiset.range state.crew.nextSlot →
          {state.crew.nextSlot} + units = Multiset.range (state.crew.nextSlot + 1) := by
        rintro _ rfl
        rw [Multiset.range_succ, Multiset.singleton_add]
      constructor
      · rw [htally, Tally.total_add, hslot]
        exact hnew _ hcounted.total
      · rw [htally, hevents, hslot, Tally.unstarted_add, add_assoc]
        exact hnew _ hcounted.fresh
      · rw [htally, hevents, Tally.underway_add]
        exact hcounted.balance.trans (congrArg _ (zero_add _).symm)
      · rw [htally, hevents, Tally.answers_add]
        intro answer hanswer
        rcases Multiset.mem_add.mp hanswer with hnone | hold
        · exact absurd hnone (Multiset.notMem_zero _)
        · exact hcounted.answered answer hold

end Counted

section Traced

theorem isTraced_start (requested : Nat) (label : String) :
    (State.start requested label).IsTraced ends where
  running worker job hrunning := by
    cases List.eq_of_mem_replicate (List.mem_of_getElem? hrunning)
  ended := nofun

/-- Nothing is seen while the workers stay as they are. -/
theorem State.IsTraced.of_eq (htraced : state.IsTraced ends)
    (hworkers : state'.crew.workers = state.crew.workers) (hlog : state'.log = state.log) :
    state'.IsTraced ends where
  running := by
    rw [hworkers, hlog]
    exact htraced.running
  ended := by
    rw [hlog]
    exact htraced.ended

theorem Step.isTraced (hstep : Step ends state state') (htraced : state.IsTraced ends) :
    state'.IsTraced ends := by
  rcases hstep with hcall | hmove
  · cases hcall <;> exact htraced.of_eq rfl rfl
  · cases hmove with
    | receive _ _ _ => exact htraced.of_eq rfl rfl
    | lose _ _ => exact htraced.of_eq rfl rfl
    | finish _ => exact htraced.of_eq rfl rfl
    | @work worker event? crew hstep =>
        constructor
        · intro other job hrunning
          rcases hstep.running_cases hrunning with hold | ⟨rfl, rfl⟩
          · exact List.mem_append_left _ (htraced.running other job hold)
          · exact List.mem_append_right _ List.mem_cons_self
        · intro other unit ending cancels hended
          rcases List.mem_append.mp hended with hold | hnew
          · obtain ⟨hbegan, hend⟩ := htraced.ended other unit ending cancels hold
            exact ⟨List.mem_append_left _ hbegan, hend⟩
          · obtain ⟨event, hevent, heq⟩ := List.mem_map.mp hnew
            obtain ⟨rfl, rfl⟩ := Prod.mk.inj heq
            rw [Option.mem_toList] at hevent
            rw [hevent] at hstep
            obtain ⟨job, hjob, rfl⟩ := hstep.exists_running
            exact ⟨List.mem_append_left _ (htraced.running _ job hjob), hstep.1.ends_of_ended⟩
    | join _ _ => exact htraced.of_eq rfl rfl
    | dropped _ _ => exact htraced.of_eq rfl rfl

end Traced

/-- All that the steps of a pool preserve. -/
structure State.IsSound (ends : Nat → Ending → Bool → Prop) (state : State) : Prop where
  manned : state.IsManned
  linked : state.IsLinked
  counted : state.IsCounted
  traced : state.IsTraced ends

theorem Step.isSound (hstep : Step ends state state') (hsound : state.IsSound ends) :
    state'.IsSound ends := by
  obtain ⟨hmanned, hlinked, hcounted, htraced⟩ := hsound
  have htraced' := hstep.isTraced htraced
  rcases hstep with hcall | hmove
  · exact ⟨hcall.isManned hmanned, hcall.isLinked hmanned hlinked,
      (hcall.effect hmanned).isCounted hcounted, htraced'⟩
  · exact ⟨hmove.isManned hmanned, hmove.isLinked hlinked,
      (hmove.effect hlinked).isCounted hcounted, htraced'⟩

theorem Reachable.isSound {requested : Nat} {label : String}
    (hreach : Reachable ends requested label state) : state.IsSound ends := by
  induction hreach with
  | refl =>
      exact ⟨isManned_start requested label, isLinked_start requested label,
        isCounted_start requested label, isTraced_start requested label⟩
  | tail _ hstep ih => exact hstep.isSound ih

def Phase.effort (workers : Nat) : Phase → Nat
  | free => 0
  | waiting _ left _ => left.length + 1
  | joining worker => workers - worker + 1

def State.rank (state : State) : Nat :=
  state.crew.effort + state.crew.awake + state.phase.effort state.crew.workers.length

theorem Move.rank_lt (hmove : Move ends state state') : state'.rank < state.rank := by
  cases hmove with
  | receive hphase hreplies _ =>
      simp only [State.rank, hphase, Phase.effort, Crew.effort, Crew.awake, hreplies,
        List.length_append, List.length_cons]
      omega
  | lose hphase _ =>
      simp only [State.rank, hphase, Phase.effort, List.length_cons]
      omega
  | finish hphase =>
      simp only [State.rank, hphase, Phase.effort]
      omega
  | work hstep =>
      simp only [State.rank, hstep.1.length_workers]
      exact Nat.add_lt_add_right hstep.1.effort_add_awake_lt _
  | join hphase hgone =>
      have hlt := (List.getElem?_eq_some_iff.mp hgone).1
      simp only [State.rank, hphase, Phase.effort]
      omega
  | dropped hphase _ =>
      simp only [State.rank, hphase, Phase.effort]
      omega

/-- Every unit that was handed in has been run, and none has been run twice. -/
def State.HasRunAll (state : State) : Prop :=
  (ended state.events).Perm (List.range state.crew.nextSlot)

/-- The result says how the body of the unit ended on the worker that ran it. -/
def State.IsResultOf (ends : Nat → Ending → Bool → Prop) (state : State) (unit : Nat)
    (result : TaskResult) : Prop :=
  ∃ worker ending cancels, (worker, .began unit) ∈ state.log ∧
    (worker, .ended unit ending cancels) ∈ state.log ∧ ends unit ending cancels ∧
      result = ending.result

namespace State.IsSound

variable (hsound : state.IsSound ends)
include hsound

/-- When the workers rest, everything that was handed in has been run. -/
theorem hasRunAll (hrests : state.crew.Rests) : state.HasRunAll := by
  have hunstarted : state.crew.tally.unstarted = 0 := by
    refine (Crew.map_weigh _ _ _ Tally.unstartedHom state.crew).trans ?_
    rw [hrests.weigh_eq]
    exact List.sum_map_zero
  have hunderway : state.crew.tally.underway = 0 := by
    refine (Crew.map_weigh _ _ _ Tally.underwayHom state.crew).trans ?_
    rw [hrests.weigh_eq]
    exact List.sum_map_zero
  have hfresh := hsound.counted.fresh
  have hbalance := hsound.counted.balance
  rw [State.tally, Tally.unstarted_add, hunstarted] at hfresh
  rw [State.tally, Tally.underway_add, hunderway] at hbalance
  apply Multiset.coe_eq_coe.mp
  calc (ended state.events : Multiset Nat)
    _ = begun state.events := (hbalance.trans (add_zero _)).symm
    _ = 0 + 0 + begun state.events := by rw [zero_add, zero_add]
    _ = List.range state.crew.nextSlot := hfresh

/-- As long as the owner waits or the workers have work, something can go on. -/
theorem rests (hends : ∀ unit, ∃ ending cancels, ends unit ending cancels)
    (hstuck : ∀ state', ¬ Move ends state state') : state.phase = .free ∧ state.HasRunAll := by
  rcases hsound.manned.crew.exists_step_or_rests hends with
    ⟨worker, event?, crew, hstep⟩ | ⟨hrests, hgone⟩
  · exact absurd (.work hstep) (hstuck _)
  refine ⟨?_, hsound.hasRunAll hrests⟩
  cases hphase : state.phase with
  | free => rfl
  | waiting batch left results =>
      cases left with
      | nil => exact absurd (.finish hphase) (hstuck _)
      | cons slot left =>
          -- the workers rest, so the result that is next in turn is in its slot
          have hmem : slot ∈ state.held := by
            rw [State.held, hphase]
            exact List.mem_append_right _ List.mem_cons_self
          obtain ⟨job, hjob, hslot⟩ := hsound.linked.held slot hmem
          rw [hrests.jobs_eq] at hjob
          obtain ⟨⟨_, result⟩, hreply, rfl⟩ := List.mem_map.mp hjob
          obtain ⟨before, after, hreplies⟩ := List.append_of_mem hreply
          exact absurd (.receive hphase hreplies hslot) (hstuck _)
  | joining worker =>
      obtain ⟨hclosed, -⟩ := hsound.manned.joining worker hphase
      cases hworker : state.crew.workers[worker]? with
      | none => exact absurd (.dropped hphase hworker) (hstuck _)
      | some now =>
          rw [hgone hclosed now (List.mem_of_getElem? hworker)] at hworker
          exact absurd (.join hphase hworker) (hstuck _)

omit hsound in
theorem begun_eq_filterMap_log (state : State) :
    begun state.events = state.log.filterMap fun entry => entry.2.begun? := by
  rw [begun, State.events, List.filterMap_map]
  rfl

/-- No unit begins on two workers. -/
theorem eq_of_began {unit first second : Nat} (hfirst : (first, .began unit) ∈ state.log)
    (hsecond : (second, .began unit) ∈ state.log) : first = second := by
  have hnodup : (begun state.events).Nodup := by
    have hfresh : (state.tally.unstarted + begun state.events).Nodup := by
      rw [hsound.counted.fresh]
      exact Multiset.nodup_range _
    exact Multiset.coe_nodup.mp (Multiset.nodup_add.mp hfresh).2.1
  rw [begun_eq_filterMap_log, List.Nodup, List.pairwise_filterMap] at hnodup
  by_contra hne
  have : Std.Symm fun left right : Nat × Event Nat =>
      ∀ unit, left.2.begun? = some unit → ∀ other, right.2.begun? = some other → unit ≠ other :=
    ⟨fun _ _ hother unit hunit other heq => (hother other heq unit hunit).symm⟩
  exact hnodup.forall hfirst hsecond (fun heq => hne (Prod.mk.inj heq).1) unit rfl unit rfl rfl

theorem isResultOf_of_mem_results {answer : Nat × TaskResult} (hanswer : answer ∈ state.results) :
    state.IsResultOf ends answer.1 answer.2 := by
  have hmem : answer ∈ state.tally.answers :=
    Multiset.mem_add.mpr (Or.inr (Multiset.mem_coe.mpr hanswer))
  obtain ⟨ending, cancels, hended, hresult⟩ := hsound.counted.answered answer hmem
  obtain ⟨⟨worker, _⟩, hentry, rfl⟩ := List.mem_map.mp hended
  obtain ⟨hbegan, hend⟩ := hsound.traced.ended _ _ _ _ hentry
  exact ⟨worker, ending, cancels, hbegan, hentry, hend, hresult⟩

/-- A batch gives each handle the result of its own unit. -/
theorem forall₂_isResultOf {call : List Nat × List TaskResult} (hcall : call ∈ state.returned) :
    List.Forall₂ (state.IsResultOf ends) call.1 call.2 := by
  refine List.forall₂_iff_zip.mpr ⟨hsound.linked.returned call hcall, ?_⟩
  intro unit result hzip
  have hanswer : (unit, result) ∈ state.results :=
    List.mem_append_left _ (List.mem_flatMap.mpr ⟨call, hcall, hzip⟩)
  exact hsound.isResultOf_of_mem_results hanswer

end State.IsSound

/-- A body does not end by its pool being closed. -/
theorem State.IsResultOf.ne_disconnected {unit : Nat} {result : TaskResult}
    (hresult : state.IsResultOf ends unit result) : result ≠ .error .disconnected := by
  obtain ⟨worker, ending, cancels, -, -, -, rfl⟩ := hresult
  cases ending <;> rintro ⟨⟩

/-- Every unit that was handed in either waits or has begun, once and on one worker, which
also ends it.  Every handle that was waited for gave the result of its own unit.  As long as
the pool is open, no unit is refused, and every worker gets free by its own steps and takes
the next unit.  When the drop of the pool is over, every unit has been run; and if nothing
else is asked for, the same comes about after finitely many steps, and every call returns. -/
structure State.LosesNothing (ends : Nat → Ending → Bool → Prop) (state : State) : Prop where
  once : state.crew.tally.unstarted + begun state.events =
    Multiset.range state.crew.nextSlot
  ended : (begun state.events : Multiset Nat) =
    Interleaving.ended state.events + state.crew.tally.underway
  byOne : ∀ unit first second, (first, .began unit) ∈ state.log →
    (second, .began unit) ∈ state.log → first = second
  endedByIt : ∀ worker unit ending cancels, (worker, .ended unit ending cancels) ∈ state.log →
    (worker, .began unit) ∈ state.log
  accepted : state.crew.isOpen = true → ∃ worker ∈ state.crew.workers, worker ≠ .gone
  returned : ∀ call ∈ state.returned, List.Forall₂ (state.IsResultOf ends) call.1 call.2
  connected : ∀ call ∈ state.returned, ∀ result ∈ call.2, result ≠ .error .disconnected
  ready : state.crew.isOpen = true → ∀ worker < state.crew.workers.length,
    ∃ free, ReflTransGen (Crew.GoesOn ends worker) state.crew free ∧
      free.workers[worker]? = some .idle ∧
        ∀ job queue, state.crew.queue = job :: queue →
          ∃ taken, Crew.GoesOn ends worker free taken ∧
            taken.workers[worker]? = some (.holding job)
  dropped : state.crew.isOpen = false → state.phase = .free → state.HasRunAll
  rests : (∀ state', ¬ Move ends state state') → state.phase = .free ∧ state.HasRunAll
  restsAtLast : ∀ run : Nat → State, run 0 = state →
    ∃ moment, ¬ Move ends (run moment) (run (moment + 1))

/-- At every moment that a pool of threads can come to, no unit is lost or run twice. -/
theorem losesNothing_of_reachable {requested : Nat} {label : String}
    (hends : ∀ unit, ∃ ending cancels, ends unit ending cancels)
    (hreach : Reachable ends requested label state) : state.LosesNothing ends := by
  have hsound := hreach.isSound
  have hsame : state.tally.unstarted = state.crew.tally.unstarted ∧
      state.tally.underway = state.crew.tally.underway := ⟨add_zero _, add_zero _⟩
  constructor
  · rw [← hsame.1]
    exact hsound.counted.fresh
  · rw [← hsame.2]
    exact hsound.counted.balance
  · exact fun unit first second => hsound.eq_of_began
  · exact fun worker unit ending cancels hended =>
      (hsound.traced.ended worker unit ending cancels hended).1
  · exact hsound.manned.not_refused
  · exact fun call => hsound.forall₂_isResultOf
  · intro call hcall result hresult
    have hresults := hsound.forall₂_isResultOf hcall
    obtain ⟨place, hplace, rfl⟩ := List.getElem_of_mem hresult
    exact (hresults.get (hresults.length_eq ▸ hplace) hplace).ne_disconnected
  · intro hopen worker hlt
    have hawake : state.crew.workers[worker] ≠ .gone := by
      intro hgone
      exact (hsound.manned.crew.isStaffed hopen).stays (hgone ▸ List.getElem_mem hlt)
    obtain ⟨free, hpath, hidle, hqueue⟩ :=
      Crew.exists_idle_of_ne_gone hends (List.getElem?_eq_getElem hlt) hawake
    refine ⟨free, hpath, hidle, fun job queue hjob => ?_⟩
    obtain ⟨left, right, hworkers, rfl⟩ := exists_eq_append_of_getElem? hidle
    refine ⟨_, ⟨_, Crew.Step.by_length hworkers rfl (.take (hqueue.trans hjob) hworkers)⟩, ?_⟩
    exact Crew.getElem?_length_workers _ _ _
  · intro hclosed hphase
    have hgone := hsound.manned.dropped hclosed fun worker hjoining => by
      rw [hphase] at hjoining
      cases hjoining
    obtain ⟨worker, hworker⟩ := List.exists_mem_of_ne_nil _ hsound.manned.crew.manned
    have hqueue := (hsound.manned.crew.gone (hgone worker hworker ▸ hworker)).2
    exact hsound.hasRunAll ⟨hqueue, fun other hother => Or.inr (hgone other hother)⟩
  · exact hsound.rests hends
  · intro run hstart
    by_contra! hmoves
    obtain ⟨moment, hstuck⟩ :=
      WellFounded.not_rel_apply_succ (r := (· < ·)) fun moment => (run moment).rank
    exact hstuck (hmoves moment).rank_lt

def trials : List (Work Unit) :=
  [fun _ _ => (.panicked (.text "bad system"), ()), fun _ _ => (.failed ["no fuel"], ()),
    fun _ _ => (.done, ())]

theorem losesNothing_of_reachable_trials :
    (∀ unit, ∃ ending cancels, endsOf trials unit ending cancels) ∧
      ∃ moment, Reachable (endsOf trials) 2 "crew" moment ∧
        moment.returned = [([0, 1, 2],
          [.error (.panicked "bad system"), .error (.failed ["no fuel"]), .ok ()])] ∧
        moment.LosesNothing (endsOf trials) := by
  have hends : ∀ unit, ∃ ending cancels, endsOf trials unit ending cancels :=
    exists_endsOf trials ()
  obtain ⟨moment, hreach, -, hreturned⟩ := exists_reachable_submitAll 2 "crew" trials ()
  exact ⟨hends, moment, hreach, hreturned, losesNothing_of_reachable hends hreach⟩

end TickWaves.ThreadPool
