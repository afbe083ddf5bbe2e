import TickWaves.Proofs.Tick.Interleaving

/-!
# Which systems of a wave are where

Every system that a wave runs is with the coordinator or with the crew, and it has not
begun, is underway or has its result.  `Step.effect` says all that a step can do to this:
one system moves on, or a wave begins, or it is finished.  The slots see to it that each
result is fetched for its own system (`State.IsLinked`).
-/

namespace TickWaves.Interleaving

open Relation

universe u

variable {β : Type u}

namespace Phase

def tally : Phase → Tally Nat
  | submitting pooled bound => .ofUnstarted (pooled + bound)
  | turning bound => .ofUnstarted bound
  | inside node bound => ⟨bound, {node}, 0⟩
  | _ => 0

/-- Unless a wave runs one system only, its systems go to where they belong. -/
theorem opening_of_length_ne_one (plan : Plan β) {runnable : List Nat}
    (hlength : runnable.length ≠ 1) :
    opening plan runnable =
      .submitting (runnable.filter fun node => !plan.isBound node)
        (runnable.filter fun node => plan.isBound node) := by
  rw [opening.eq_def]
  split
  case h_1 => exact absurd rfl hlength
  case h_2 => rfl

theorem isOpen_opening (plan : Plan β) (runnable : List Nat) :
    (opening plan runnable).isOpen = true := by
  rw [opening.eq_def]
  split <;> rfl

theorem tally_opening (plan : Plan β) (runnable : List Nat) :
    (opening plan runnable).tally = .ofUnstarted runnable := by
  rw [opening.eq_def]
  split
  case h_1 => rfl
  case h_2 =>
    apply congrArg Tally.ofUnstarted
    rw [add_comm, Multiset.coe_add, Multiset.coe_eq_coe]
    exact List.filter_append_perm _ _

end Phase

namespace State

def tally (state : State) : Tally Nat :=
  state.crew.tally + .ofAnswers state.results + state.phase.tally

/-- The jobs of the crew are those that the coordinator waits for, each with a slot of its
own. -/
structure IsLinked (state : State) : Prop where
  jobs : state.crew.jobs = state.handles
  slots : (state.handles.map Job.slot).Nodup
  fresh : ∀ job ∈ state.handles, job.slot < state.crew.nextSlot
  closed : state.phase.isOpen = false → state.handles = []

/-- The parts of a state that only the beginning and the end of a wave change. -/
structure Keeps (before after : State) : Prop where
  settled : after.settled = before.settled
  wavesRun : after.wavesRun = before.wavesRun
  runnable : after.runnable = before.runnable
  isOpen : after.phase.isOpen = before.phase.isOpen

/-- The result in the slot of a job is the result of that job. -/
theorem IsLinked.eq_of_slot_eq {state : State} (hlinked : state.IsLinked) {job other : Job Nat}
    {handles : List (Job Nat)} {result : TaskResult} {left right : List (Job Nat × TaskResult)}
    (hhandles : state.handles = job :: handles)
    (hreplies : state.crew.replies = left ++ (other, result) :: right)
    (hslot : other.slot = job.slot) : other = job := by
  have hjob : job ∈ state.handles := by
    rw [hhandles]
    exact List.mem_cons_self
  have hother : other ∈ state.handles := by
    rw [← Multiset.mem_coe, ← hlinked.jobs, Crew.jobs_of_replies hreplies]
    exact Multiset.mem_add.mpr (Or.inl (Multiset.mem_singleton_self _))
  exact List.inj_on_of_nodup_map hlinked.slots hother hjob hslot

end State

variable {plan : Plan β} {conduct : Conduct} {state state' : State}

theorem isLinked_start (size : Nat) (token : Bool) : (State.start size token).IsLinked where
  jobs := by
    simp [State.start, Crew.ofSize, Crew.jobs, Crew.weigh]
  slots := List.nodup_nil
  fresh := by
    intro job hjob
    cases hjob
  closed _ := rfl

theorem State.IsLinked.of_eq (hlinked : state.IsLinked)
    (hjobs : state'.crew.jobs = state.crew.jobs)
    (hslot : state'.crew.nextSlot = state.crew.nextSlot)
    (hhandles : state'.handles = state.handles)
    (hclosed : state'.phase.isOpen = false → state.handles = []) : state'.IsLinked where
  jobs := by
    rw [hjobs, hhandles]
    exact hlinked.jobs
  slots := by
    rw [hhandles]
    exact hlinked.slots
  fresh := by
    rw [hhandles, hslot]
    exact hlinked.fresh
  closed := by
    rw [hhandles]
    exact hclosed

/-- A job that is handed in gets a slot that no other job has. -/
theorem State.IsLinked.hand (hlinked : state.IsLinked) (node : Nat) {phase : Phase}
    (hopen : phase.isOpen = true) :
    State.IsLinked { state with
      phase := phase
      handles := state.handles ++ [⟨state.crew.nextSlot, node⟩]
      crew := state.crew.submit node } where
  jobs := by
    rw [Crew.jobs_submit, hlinked.jobs, ← Multiset.coe_add, add_comm]
    rfl
  slots := by
    rw [List.map_append, List.map_singleton, List.nodup_append_comm, List.singleton_append,
      List.nodup_cons]
    refine ⟨?_, hlinked.slots⟩
    intro hmem
    obtain ⟨old, hold, hslot⟩ := List.mem_map.mp hmem
    have hlt := hlinked.fresh old hold
    rw [hslot] at hlt
    exact Nat.lt_irrefl _ hlt
  fresh := by
    intro other hother
    rcases List.mem_append.mp hother with hold | hnew
    · exact Nat.lt_succ_of_lt (hlinked.fresh other hold)
    · rw [List.mem_singleton.mp hnew]
      exact Nat.lt_succ_self _
  closed hclosed := absurd (hclosed.symm.trans hopen) Bool.false_ne_true

/-- The job whose result is fetched is the one that leaves the crew. -/
theorem State.IsLinked.fetch (hlinked : state.IsLinked) {job other : Job Nat}
    {handles : List (Job Nat)} {result : TaskResult} {left right : List (Job Nat × TaskResult)}
    (hphase : state.phase = .waiting) (hhandles : state.handles = job :: handles)
    (hreplies : state.crew.replies = left ++ (other, result) :: right)
    (hslot : other.slot = job.slot) (results : List (Nat × TaskResult)) :
    State.IsLinked { state with
      handles := handles
      results := results
      crew := { state.crew with replies := left ++ right } } where
  jobs := by
    have hjobs := Crew.jobs_of_replies hreplies
    rw [hlinked.jobs, hhandles, hlinked.eq_of_slot_eq hhandles hreplies hslot,
      ← Multiset.cons_coe, ← Multiset.singleton_add] at hjobs
    exact (add_left_cancel hjobs).symm
  slots := by
    have hslots := hlinked.slots
    rw [hhandles, List.map_cons, List.nodup_cons] at hslots
    exact hslots.2
  fresh := by
    intro rest hrest
    apply hlinked.fresh
    rw [hhandles]
    exact List.mem_cons_of_mem _ hrest
  closed hclosed := by
    change state.phase.isOpen = false at hclosed
    rw [hphase] at hclosed
    exact absurd hclosed.symm Bool.false_ne_true

theorem Step.isLinked (hstep : Step plan conduct state state') (hlinked : state.IsLinked) :
    state'.IsLinked := by
  have hgate : state.phase = .gate → state.handles = [] := by
    intro hphase
    apply hlinked.closed
    rw [hphase]
    rfl
  have hopen : true = false → state.handles = [] := fun heq =>
    absurd heq.symm Bool.false_ne_true
  cases hstep with
  | stop hphase _ _ => exact hlinked.of_eq rfl rfl rfl fun _ => hgate hphase
  | done hphase _ => exact hlinked.of_eq rfl rfl rfl fun _ => hgate hphase
  | start hphase _ _ => exact hlinked.of_eq rfl rfl rfl fun _ => hgate hphase
  | @hand node _ _ _ => exact hlinked.hand node rfl
  | turn _ => exact hlinked.of_eq rfl rfl rfl hopen
  | enter _ => exact hlinked.of_eq rfl rfl rfl hopen
  | leave _ _ => exact hlinked.of_eq rfl rfl rfl hopen
  | wait _ => exact hlinked.of_eq rfl rfl rfl hopen
  | fetch hphase hhandles hreplies hslot =>
      exact hlinked.fetch hphase hhandles hreplies hslot _
  | settle _ hhandles => exact hlinked.of_eq rfl rfl rfl fun _ => hhandles
  | work hcrew => exact hlinked.of_eq hcrew.jobs_eq hcrew.nextSlot_eq rfl hlinked.closed
  | interrupt _ => exact hlinked.of_eq rfl rfl rfl hlinked.closed

/-- What a step does to the systems of a wave: one of them moves on, or the wave begins, or
it is finished. -/
inductive Effect (plan : Plan β) (state : State) : State → Prop
  | moved {state' : State} (event? : Option (Event Nat)) :
      Tally.Moves event? state.tally state'.tally → state'.log = state.log ++ event?.toList →
        State.Keeps state state' → Effect plan state state'
  | opened {wave : Wave} :
      state.phase = .gate → plan.waves[state.wavesRun]? = some wave →
        Effect plan state (state.opened plan wave.nodes)
  | closed : state.phase = .waiting → state.handles = [] → Effect plan state state.closed

theorem Effect.silent (htally : state'.tally = state.tally) (hlog : state'.log = state.log)
    (hkeeps : State.Keeps state state') : Effect plan state state' := by
  apply Effect.moved none htally _ hkeeps
  rw [hlog]
  exact (List.append_nil _).symm

theorem Effect.rephased {phase : Phase} (htally : phase.tally = state.phase.tally)
    (hopen : phase.isOpen = state.phase.isOpen) :
    Effect plan state { state with phase := phase } := by
  apply Effect.silent
  · exact congrArg (_ + ·) htally
  · rfl
  · exact ⟨rfl, rfl, rfl, hopen⟩

theorem Step.effect (hstep : Step plan conduct state state') (hlinked : state.IsLinked) :
    Effect plan state state' := by
  cases hstep with
  | stop hphase _ _ =>
      apply Effect.rephased
      · rw [hphase]
        rfl
      · rw [hphase]
        rfl
  | done hphase _ =>
      apply Effect.rephased
      · rw [hphase]
        rfl
      · rw [hphase]
        rfl
  | start hphase hwave _ => exact Effect.opened hphase hwave
  | @hand node pooled bound hphase =>
      apply Effect.silent
      · have hhead : (Phase.submitting (node :: pooled) bound).tally =
            .ofUnstarted {node} + (Phase.submitting pooled bound).tally := rfl
        rw [State.tally, State.tally, hphase, hhead, Crew.tally_submit]
        abel
      · rfl
      · exact ⟨rfl, rfl, rfl, by rw [hphase]; rfl⟩
  | turn hphase =>
      apply Effect.rephased
      · rw [hphase]
        rfl
      · rw [hphase]
        rfl
  | @enter node bound hphase =>
      refine Effect.moved (some (.began node)) ?_ rfl ⟨rfl, rfl, rfl, by rw [hphase]; rfl⟩
      rw [State.tally, hphase]
      apply Tally.Moves.add_left
      exact ⟨rfl, rfl, rfl⟩
  | @leave node bound ending cancels hphase _ =>
      refine Effect.moved (some (.ended node ending cancels)) ?_ rfl
        ⟨rfl, rfl, rfl, by rw [hphase]; rfl⟩
      have hlast : Tally.ofAnswers (state.results ++ [(node, ending.result)] : List _) =
          .ofAnswers state.results + .ofAnswers {(node, ending.result)} := rfl
      change Tally.Moves _ _ (state.crew.tally +
        .ofAnswers (state.results ++ [(node, ending.result)] : List _) + .ofUnstarted bound)
      rw [State.tally, hphase, hlast, ← add_assoc, add_assoc _ _ (Tally.ofUnstarted _)]
      apply Tally.Moves.add_left
      exact ⟨rfl, rfl, rfl⟩
  | wait hphase =>
      apply Effect.rephased
      · rw [hphase]
        rfl
      · rw [hphase]
        rfl
  | @fetch job other handles result left right hphase hhandles hreplies hslot =>
      apply Effect.silent
      · have hlast : Tally.ofAnswers (state.results ++ [(job.unit, result)] : List _) =
            .ofAnswers state.results + .ofAnswers {(job.unit, result)} := rfl
        have htally := Crew.tally_of_replies hreplies
        rw [hlinked.eq_of_slot_eq hhandles hreplies hslot] at htally
        rw [State.tally, State.tally, hlast, htally]
        abel
      · rfl
      · exact ⟨rfl, rfl, rfl, rfl⟩
  | settle hphase hhandles => exact Effect.closed hphase hhandles
  | @work event? crew hcrew =>
      refine Effect.moved event? ?_ rfl ⟨rfl, rfl, rfl, rfl⟩
      apply Tally.Moves.add_right
      apply Tally.Moves.add_right
      exact hcrew.moves
  | interrupt _ => exact Effect.silent rfl rfl ⟨rfl, rfl, rfl, rfl⟩

end TickWaves.Interleaving
