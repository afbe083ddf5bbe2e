import TickWaves.Proofs.Pool.Workers
import TickWaves.Proofs.Tick.RaceFreedom

/-!
# A pool of threads and its owner

The owner of a pool hands in units of work, waits for the results of some of them, lets go
of others, and at last drops the pool: it closes the queue and joins the workers one after
the other.  `ThreadPool.Call` is what the owner may ask for, and `ThreadPool.Move` is what
its call and the workers then do.  Units are numbered in the order in which they are handed
in, and a unit, the slot for its result and the handle of that slot have the same number.

A result can be missing in two ways: a unit is refused because no worker is left, or its slot
is empty and nobody can fill it any more.  Both are steps of the model; neither is ever taken
(`ThreadPool.Move.effect`).
-/

namespace TickWaves.ThreadPool

open Relation Interleaving

/-- What the owner of a pool is about. -/
inductive Phase
  /-- It can ask for something. -/
  | free
  /-- It waits for a batch of handles, some of which are left, and it has the results of the
  others. -/
  | waiting (batch left : List Nat) (results : List TaskResult)
  /-- It has closed the queue, and it joins the workers from the given one on. -/
  | joining (worker : Nat)

/-- The handles that are still to be waited for. -/
def Phase.left : Phase → List Nat
  | waiting _ left _ => left
  | _ => []

def Phase.results : Phase → List (Nat × TaskResult)
  | waiting batch _ results => batch.zip results
  | _ => []

/-- A pool and its owner at one moment. -/
structure State where
  phase : Phase
  crew : Crew Nat
  /-- The handles that the owner can wait for. -/
  handles : List Nat
  /-- The batches that it has waited for, each with what it was given for it. -/
  returned : List (List Nat × List TaskResult)
  /-- What was seen of the bodies, each time with the worker that it was seen on. -/
  log : List (Nat × Event Nat)

namespace State

def start (requested : Nat) (label : String) : State where
  phase := .free
  crew := Crew.ofSize (Pool.threads requested label).workers
  handles := []
  returned := []
  log := []

def events (state : State) : List (Event Nat) := state.log.map Prod.snd

/-- The handles whose results the owner can still get. -/
def held (state : State) : List Nat := state.handles ++ state.phase.left

def results (state : State) : List (Nat × TaskResult) :=
  (state.returned.flatMap fun call => call.1.zip call.2) ++ state.phase.results

def tally (state : State) : Tally Nat := state.crew.tally + .ofAnswers state.results

end State

/-- The owner asks for something. -/
inductive Call : State → State → Prop
  | submit {state : State} :
      state.phase = .free → state.crew.isOpen = true →
        (∃ worker ∈ state.crew.workers, worker ≠ .gone) →
          Call state
            { state with
              handles := state.handles ++ [state.crew.nextSlot]
              crew := state.crew.submit state.crew.nextSlot }
  /-- A unit is handed in when nobody is left to run it. -/
  | refuse {state : State} :
      state.phase = .free → state.crew.isOpen = true →
        (∀ worker ∈ state.crew.workers, worker = .gone) →
          Call state
            { state with
              handles := state.handles ++ [state.crew.nextSlot]
              crew := { state.crew with
                replies := state.crew.replies ++
                  [(⟨state.crew.nextSlot, state.crew.nextSlot⟩, .error .disconnected)]
                nextSlot := state.crew.nextSlot + 1 } }
  /-- It waits for some of its handles, in any order. -/
  | waitAll {state : State} {batch rest : List Nat} :
      state.phase = .free → state.handles.Perm (batch ++ rest) →
        Call state { state with phase := .waiting batch batch [], handles := rest }
  /-- It lets go of some of its handles. -/
  | discard {state : State} {batch rest : List Nat} :
      state.phase = .free → state.handles.Perm (batch ++ rest) →
        Call state { state with handles := rest }
  | drop {state : State} :
      state.phase = .free → state.crew.isOpen = true →
        Call state
          { state with
            phase := .joining 0
            crew := { state.crew with isOpen := false } }

/-- The owner goes on with what it asked for, or a worker takes its next step.  `ends` says
how the body of a unit may end. -/
inductive Move (ends : Nat → Ending → Bool → Prop) : State → State → Prop
  /-- The result that is next in turn is taken from its slot. -/
  | receive {state : State} {batch left : List Nat} {slot : Nat} {results : List TaskResult}
      {job : Job Nat} {result : TaskResult} {before after : List (Job Nat × TaskResult)} :
      state.phase = .waiting batch (slot :: left) results →
        state.crew.replies = before ++ (job, result) :: after → job.slot = slot →
          Move ends state
            { state with
              phase := .waiting batch left (results ++ [result])
              crew := { state.crew with replies := before ++ after } }
  /-- The slot is empty, and nobody is left who could fill it. -/
  | lose {state : State} {batch left : List Nat} {slot : Nat} {results : List TaskResult} :
      state.phase = .waiting batch (slot :: left) results →
        (∀ job ∈ state.crew.jobs, job.slot ≠ slot) →
          Move ends state
            { state with phase := .waiting batch left (results ++ [.error .disconnected]) }
  | finish {state : State} {batch : List Nat} {results : List TaskResult} :
      state.phase = .waiting batch [] results →
        Move ends state
          { state with phase := .free, returned := state.returned ++ [(batch, results)] }
  /-- A worker takes its next step. -/
  | work {state : State} {worker : Nat} {event? : Option (Event Nat)} {crew : Crew Nat} :
      Crew.StepBy ends worker state.crew event? crew →
        Move ends state
          { state with crew := crew, log := state.log ++ event?.toList.map (worker, ·) }
  /-- A worker that has ended is joined. -/
  | join {state : State} {worker : Nat} :
      state.phase = .joining worker → state.crew.workers[worker]? = some .gone →
        Move ends state { state with phase := .joining (worker + 1) }
  /-- All workers are joined. -/
  | dropped {state : State} {worker : Nat} :
      state.phase = .joining worker → state.crew.workers[worker]? = none →
        Move ends state { state with phase := .free }

def Step (ends : Nat → Ending → Bool → Prop) (state state' : State) : Prop :=
  Call state state' ∨ Move ends state state'

/-- The moments that a pool can come to. -/
def Reachable (ends : Nat → Ending → Bool → Prop) (requested : Nat) (label : String) :
    State → Prop :=
  ReflTransGen (Step ends) (State.start requested label)

/-- Every handle belongs to a job of the crew, and no other handle belongs to it. -/
structure State.IsLinked (state : State) : Prop where
  slots : ∀ job ∈ state.crew.jobs, job.slot = job.unit ∧ job.slot < state.crew.nextSlot
  distinct : state.held.Nodup
  held : ∀ slot ∈ state.held, ∃ job ∈ state.crew.jobs, job.slot = slot
  waiting : ∀ batch left results, state.phase = .waiting batch left results →
    ∃ taken, batch = taken ++ left ∧ taken.length = results.length
  returned : ∀ call ∈ state.returned, call.1.length = call.2.length

/-- The workers end only when the pool is dropped, and then the owner waits for them. -/
structure State.IsManned (state : State) : Prop where
  crew : state.crew.IsManned
  joining : ∀ worker, state.phase = .joining worker →
    state.crew.isOpen = false ∧ ∀ earlier < worker, state.crew.workers[earlier]? = some .gone
  dropped : state.crew.isOpen = false → (∀ worker, state.phase ≠ .joining worker) →
    ∀ worker ∈ state.crew.workers, worker = .gone

variable {ends : Nat → Ending → Bool → Prop} {state state' : State}

section Manned

theorem isManned_start (requested : Nat) (label : String) :
    (State.start requested label).IsManned where
  crew := Crew.isManned_ofSize (Nat.lt_of_lt_of_le Nat.one_pos (Nat.le_max_right requested 1))
  joining _ hphase := by cases hphase
  dropped hclosed := by cases hclosed

theorem Call.isManned (hcall : Call state state') (hmanned : state.IsManned) :
    state'.IsManned := by
  have hfree : state.phase = .free → ∀ worker, state.phase ≠ .joining worker := by
    intro hphase worker hjoining
    rw [hphase] at hjoining
    cases hjoining
  cases hcall with
  | submit hphase hopen _ =>
      refine ⟨⟨hmanned.crew.manned, fun hgone => ?_⟩, hmanned.joining, hmanned.dropped⟩
      exact absurd hgone (hmanned.crew.isStaffed hopen).stays
  | refuse _ _ _ =>
      exact ⟨⟨hmanned.crew.manned, hmanned.crew.gone⟩, hmanned.joining, hmanned.dropped⟩
  | waitAll hphase _ =>
      refine ⟨hmanned.crew, nofun, fun hclosed _ => ?_⟩
      exact hmanned.dropped hclosed (hfree hphase)
  | discard _ _ => exact ⟨hmanned.crew, hmanned.joining, hmanned.dropped⟩
  | drop _ hopen =>
      refine ⟨⟨hmanned.crew.manned, fun hgone => ?_⟩, ?_, ?_⟩
      · exact absurd hgone (hmanned.crew.isStaffed hopen).stays
      · intro worker hjoining
        cases hjoining
        exact ⟨rfl, fun earlier hlt => absurd hlt (Nat.not_lt_zero earlier)⟩
      · exact fun _ hjoining => absurd rfl (hjoining 0)

theorem Move.isManned (hmove : Move ends state state') (hmanned : state.IsManned) :
    state'.IsManned := by
  have hwaiting : ∀ {batch left : List Nat} {results : List TaskResult},
      state.phase = .waiting batch left results → ∀ worker, state.phase ≠ .joining worker := by
    intro batch left results hphase worker hjoining
    rw [hphase] at hjoining
    cases hjoining
  cases hmove with
  | receive hphase _ _ =>
      refine ⟨⟨hmanned.crew.manned, hmanned.crew.gone⟩, nofun,
        fun hclosed _ => hmanned.dropped hclosed (hwaiting hphase)⟩
  | lose hphase _ =>
      exact ⟨hmanned.crew, nofun,
        fun hclosed _ => hmanned.dropped hclosed (hwaiting hphase)⟩
  | finish hphase =>
      exact ⟨hmanned.crew, nofun,
        fun hclosed _ => hmanned.dropped hclosed (hwaiting hphase)⟩
  | work hstep =>
      refine ⟨hstep.1.isManned hmanned.crew, ?_, ?_⟩
      · intro worker hjoining
        obtain ⟨hclosed, hjoined⟩ := hmanned.joining worker hjoining
        exact ⟨hstep.1.isOpen_eq.trans hclosed,
          fun earlier hlt => hstep.gone_of_gone (hjoined earlier hlt)⟩
      · intro hclosed hjoining worker hworker
        rw [hstep.1.isOpen_eq] at hclosed
        obtain ⟨place, hplace⟩ := List.getElem?_of_mem hworker
        have hlt : place < state.crew.workers.length := by
          rw [← hstep.1.length_workers]
          exact (List.getElem?_eq_some_iff.mp hplace).1
        have hgone := hmanned.dropped hclosed hjoining _ (List.getElem_mem hlt)
        have hstays := hstep.gone_of_gone (List.getElem?_eq_some_iff.mpr ⟨hlt, hgone⟩)
        exact Option.some.inj (hplace.symm.trans hstays)
  | @join worker hphase hgone =>
      obtain ⟨hclosed, hjoined⟩ := hmanned.joining worker hphase
      refine ⟨hmanned.crew, ?_, fun _ hjoining => absurd rfl (hjoining (worker + 1))⟩
      intro next hnext
      cases hnext
      refine ⟨hclosed, fun earlier hlt => ?_⟩
      rcases Nat.lt_succ_iff_lt_or_eq.mp hlt with hbefore | rfl
      · exact hjoined earlier hbefore
      · exact hgone
  | @dropped worker hphase hnone =>
      obtain ⟨hclosed, hjoined⟩ := hmanned.joining worker hphase
      refine ⟨hmanned.crew, nofun, fun _ _ other hother => ?_⟩
      obtain ⟨place, hplace⟩ := List.getElem?_of_mem hother
      have hlt : place < worker :=
        (List.getElem?_eq_some_iff.mp hplace).1.trans_le (List.getElem?_eq_none_iff.mp hnone)
      exact Option.some.inj (hplace.symm.trans (hjoined place hlt))

/-- A unit is refused only by a pool that has been dropped. -/
theorem State.IsManned.not_refused (hmanned : state.IsManned) (hopen : state.crew.isOpen = true) :
    ∃ worker ∈ state.crew.workers, worker ≠ .gone := by
  have hstaffed := hmanned.crew.isStaffed hopen
  obtain ⟨worker, hworker⟩ := List.exists_mem_of_ne_nil _ hstaffed.manned
  refine ⟨worker, hworker, ?_⟩
  rintro rfl
  exact hstaffed.stays hworker

end Manned

section Linked

theorem isLinked_start (requested : Nat) (label : String) :
    (State.start requested label).IsLinked where
  slots := by simp [State.start, Crew.ofSize, Crew.jobs, Crew.weigh]
  distinct := List.nodup_nil
  held := nofun
  waiting := nofun
  returned := nofun

/-- As long as the jobs stay, some of the handles can be let go of. -/
theorem State.IsLinked.of_subperm (hlinked : state.IsLinked)
    (hjobs : state'.crew.jobs = state.crew.jobs)
    (hslot : state'.crew.nextSlot = state.crew.nextSlot) (hheld : state'.held.Subperm state.held)
    (hwaiting : ∀ batch left results, state'.phase = .waiting batch left results →
      ∃ taken, batch = taken ++ left ∧ taken.length = results.length)
    (hreturned : ∀ call ∈ state'.returned, call.1.length = call.2.length) :
    state'.IsLinked where
  slots := by
    rw [hjobs, hslot]
    exact hlinked.slots
  distinct := by
    obtain ⟨same, hperm, hsub⟩ := hheld
    exact hperm.nodup (hlinked.distinct.sublist hsub)
  held slot hmem := by
    rw [hjobs]
    exact hlinked.held slot (hheld.subset hmem)
  waiting := hwaiting
  returned := hreturned

theorem State.IsLinked.lt_nextSlot (hlinked : state.IsLinked) {slot : Nat}
    (hslot : slot ∈ state.held) : slot < state.crew.nextSlot := by
  obtain ⟨job, hjob, rfl⟩ := hlinked.held slot hslot
  exact (hlinked.slots job hjob).2

theorem State.held_of_free (hphase : state.phase = .free) : state.held = state.handles := by
  rw [State.held, hphase]
  exact List.append_nil _

theorem Call.isLinked (hcall : Call state state') (hmanned : state.IsManned)
    (hlinked : state.IsLinked) : state'.IsLinked := by
  have hfree : state.phase = .free → ∀ batch left results,
      state.phase = .waiting batch left results →
        ∃ taken, batch = taken ++ left ∧ taken.length = results.length := by
    intro hphase batch left results hwaiting
    rw [hphase] at hwaiting
    cases hwaiting
  cases hcall with
  | submit hphase _ _ =>
      have hheld : state.held = state.handles := State.held_of_free hphase
      have hheld' : State.held { state with
          handles := state.handles ++ [state.crew.nextSlot]
          crew := state.crew.submit state.crew.nextSlot } =
            state.handles ++ [state.crew.nextSlot] := State.held_of_free hphase
      have hjobs := Crew.jobs_submit state.crew state.crew.nextSlot
      refine ⟨?_, ?_, ?_, hfree hphase, hlinked.returned⟩
      · intro job hjob
        rw [hjobs, Multiset.mem_add, Multiset.mem_singleton] at hjob
        rcases hjob with rfl | hold
        · exact ⟨rfl, Nat.lt_succ_self _⟩
        · exact ⟨(hlinked.slots job hold).1, Nat.lt_succ_of_lt (hlinked.slots job hold).2⟩
      · rw [hheld', List.nodup_append_comm, List.singleton_append, List.nodup_cons, ← hheld]
        exact ⟨fun hmem => Nat.lt_irrefl _ (hlinked.lt_nextSlot hmem), hlinked.distinct⟩
      · intro slot hslot
        rw [hheld'] at hslot
        rw [hjobs]
        rcases List.mem_append.mp hslot with hold | hnew
        · obtain ⟨job, hjob, heq⟩ := hlinked.held slot (hheld ▸ hold)
          exact ⟨job, Multiset.mem_add.mpr (Or.inr hjob), heq⟩
        · rw [List.mem_singleton.mp hnew]
          exact ⟨_, Multiset.mem_add.mpr (Or.inl (Multiset.mem_singleton_self _)), rfl⟩
  | refuse _ hopen hgone =>
      obtain ⟨worker, hworker, hne⟩ := hmanned.not_refused hopen
      exact absurd (hgone worker hworker) hne
  | @waitAll batch rest hphase hperm =>
      have hheld : (rest ++ batch).Perm state.held := by
        rw [State.held_of_free hphase]
        exact List.perm_append_comm.trans hperm.symm
      refine hlinked.of_subperm rfl rfl hheld.subperm ?_ hlinked.returned
      intro batch left results hwaiting
      cases hwaiting
      exact ⟨[], rfl, rfl⟩
  | @discard batch rest hphase hperm =>
      refine hlinked.of_subperm rfl rfl ?_ (hfree hphase) hlinked.returned
      have hrest : State.held { state with handles := rest } = rest := State.held_of_free hphase
      rw [hrest, State.held_of_free hphase]
      exact (List.sublist_append_right batch rest).subperm.trans hperm.symm.subperm
  | drop hphase _ =>
      refine hlinked.of_subperm rfl rfl ?_ nofun hlinked.returned
      rw [State.held, State.held, hphase]
      exact List.Subperm.refl _

theorem Move.isLinked (hmove : Move ends state state') (hlinked : state.IsLinked) :
    state'.IsLinked := by
  cases hmove with
  | @receive batch left slot results job result before after hphase hreplies hslot =>
      have hjobs := Crew.jobs_of_replies hreplies
      have hheld : state.held = state.handles ++ slot :: left := by rw [State.held, hphase]; rfl
      have hsub : (state.handles ++ left).Sublist state.held := by
        rw [hheld]
        exact (List.Sublist.refl _).append (List.sublist_cons_self _ _)
      refine ⟨?_, hlinked.distinct.sublist hsub, ?_, ?_, hlinked.returned⟩
      · intro other hother
        apply hlinked.slots other
        rw [hjobs]
        exact Multiset.mem_add.mpr (Or.inr hother)
      · intro other hother
        have hne : other ≠ slot := by
          rintro rfl
          have hdistinct := hlinked.distinct
          rw [hheld] at hdistinct
          exact (List.nodup_middle.mp hdistinct).notMem hother
        obtain ⟨job', hjob', rfl⟩ := hlinked.held other (hsub.subset hother)
        rw [hjobs, Multiset.mem_add, Multiset.mem_singleton] at hjob'
        rcases hjob' with rfl | hrest
        · exact absurd hslot hne
        · exact ⟨job', hrest, rfl⟩
      · intro batch' left' results' hwaiting
        cases hwaiting
        obtain ⟨taken, rfl, hlength⟩ := hlinked.waiting _ _ _ hphase
        refine ⟨taken ++ [slot], (List.append_cons taken slot left), ?_⟩
        rw [List.length_append, List.length_append, hlength]
        rfl
  | @lose batch left slot results hphase hlost =>
      have hmem : slot ∈ state.held := by
        rw [State.held, hphase]
        exact List.mem_append_right _ List.mem_cons_self
      obtain ⟨job, hjob, heq⟩ := hlinked.held slot hmem
      exact absurd heq (hlost job hjob)
  | @finish batch results hphase =>
      refine hlinked.of_subperm rfl rfl ?_ nofun ?_
      · rw [State.held, State.held, hphase]
        exact List.Subperm.refl _
      · intro call hcall
        rcases List.mem_append.mp hcall with hold | hnew
        · exact hlinked.returned call hold
        · obtain ⟨taken, hbatch, hlength⟩ := hlinked.waiting _ _ _ hphase
          rw [List.mem_singleton.mp hnew, hbatch, List.append_nil]
          exact hlength
  | work hstep =>
      exact hlinked.of_subperm hstep.1.jobs_eq hstep.1.nextSlot_eq (List.Subperm.refl _)
        hlinked.waiting hlinked.returned
  | join hphase _ =>
      refine hlinked.of_subperm rfl rfl ?_ nofun hlinked.returned
      rw [State.held, State.held, hphase]
      exact List.Subperm.refl _
  | dropped hphase _ =>
      refine hlinked.of_subperm rfl rfl ?_ nofun hlinked.returned
      rw [State.held, State.held, hphase]
      exact List.Subperm.refl _

end Linked

/-- What a step does to the units: one of them moves on, or a new one is handed in. -/
inductive Effect (state state' : State) : Prop
  | moved (event? : Option (Event Nat)) :
      Tally.Moves event? state.tally state'.tally →
        state'.events = state.events ++ event?.toList →
          state'.crew.nextSlot = state.crew.nextSlot → Effect state state'
  | submitted :
      state'.tally = .ofUnstarted {state.crew.nextSlot} + state.tally →
        state'.events = state.events → state'.crew.nextSlot = state.crew.nextSlot + 1 →
          Effect state state'

theorem Effect.silent (htally : state'.tally = state.tally) (hlog : state'.log = state.log)
    (hslot : state'.crew.nextSlot = state.crew.nextSlot) : Effect state state' := by
  refine Effect.moved none htally ?_ hslot
  rw [State.events, hlog]
  exact (List.append_nil _).symm

/-- The result that is received is that of the next handle. -/
theorem zip_concat {batch taken left : List Nat} {slot : Nat} {results : List TaskResult}
    (hbatch : batch = taken ++ slot :: left) (hlength : taken.length = results.length)
    (result : TaskResult) :
    batch.zip (results ++ [result]) = batch.zip results ++ [(slot, result)] := by
  have hsame : batch.zip (results ++ []) = taken.zip results ++ (slot :: left).zip [] := by
    rw [hbatch, List.zip_append hlength]
  rw [List.append_nil, List.zip_nil_right, List.append_nil] at hsame
  rw [hsame, hbatch, List.zip_append hlength, List.zip_cons_cons, List.zip_nil_right]

theorem Call.effect (hcall : Call state state') (hmanned : state.IsManned) :
    Effect state state' := by
  have hsame : ∀ {phase : Phase} {handles : List Nat} {crew : Crew Nat},
      phase.results = state.phase.results → crew.tally = state.crew.tally →
        State.tally { state with phase := phase, handles := handles, crew := crew } =
          state.tally := by
    intro phase handles crew hresults htally
    rw [State.tally, State.tally, State.results, State.results, hresults, htally]
  cases hcall with
  | submit _ _ _ =>
      refine Effect.submitted ?_ rfl rfl
      rw [State.tally, State.tally, Crew.tally_submit, add_assoc]
      rfl
  | refuse _ hopen hgone =>
      obtain ⟨worker, hworker, hne⟩ := hmanned.not_refused hopen
      exact absurd (hgone worker hworker) hne
  | waitAll hphase _ =>
      refine Effect.silent (hsame ?_ rfl) rfl rfl
      rw [hphase]
      exact List.zip_nil_right
  | discard _ _ => exact Effect.silent (hsame rfl rfl) rfl rfl
  | drop hphase _ =>
      refine Effect.silent (hsame ?_ rfl) rfl rfl
      rw [hphase]
      rfl

theorem Move.effect (hmove : Move ends state state') (hlinked : state.IsLinked) :
    Effect state state' := by
  cases hmove with
  | @receive batch left slot results job result before after hphase hreplies hslot =>
      refine Effect.silent ?_ rfl rfl
      have htally := Crew.tally_of_replies hreplies
      have hunit : job.unit = slot := by
        have hjob : job ∈ state.crew.jobs := by
          rw [Crew.jobs_of_replies hreplies]
          exact Multiset.mem_add.mpr (Or.inl (Multiset.mem_singleton_self _))
        rw [← (hlinked.slots job hjob).1, hslot]
      obtain ⟨taken, hbatch, hlength⟩ := hlinked.waiting _ _ _ hphase
      have hresults : State.results { state with
          phase := .waiting batch left (results ++ [result])
          crew := { state.crew with replies := before ++ after } } =
            state.results ++ [(slot, result)] := by
        rw [State.results, State.results, hphase, List.append_assoc]
        exact congrArg _ (zip_concat hbatch hlength result)
      have hlast : Tally.ofAnswers (state.results ++ [(slot, result)] : List _) =
          .ofAnswers state.results + .ofAnswers {(slot, result)} := rfl
      rw [State.tally, State.tally, hresults, hlast, htally, hunit]
      abel
  | @lose batch left slot results hphase hlost =>
      have hmem : slot ∈ state.held := by
        rw [State.held, hphase]
        exact List.mem_append_right _ List.mem_cons_self
      obtain ⟨job, hjob, heq⟩ := hlinked.held slot hmem
      exact absurd heq (hlost job hjob)
  | @finish batch results hphase =>
      refine Effect.silent ?_ rfl rfl
      have hresults : State.results { state with
          phase := .free, returned := state.returned ++ [(batch, results)] } = state.results := by
        rw [State.results, State.results, List.flatMap_append, hphase]
        simp [Phase.results]
      rw [State.tally, hresults]
      rfl
  | @work worker event? crew hstep =>
      refine Effect.moved event? ?_ ?_ hstep.1.nextSlot_eq
      · exact hstep.1.moves.add_right (.ofAnswers state.results)
      · simp [State.events, List.map_append]
  | join hphase _ =>
      refine Effect.silent ?_ rfl rfl
      rw [State.tally, State.tally, State.results, State.results, hphase]
      rfl
  | dropped hphase _ =>
      refine Effect.silent ?_ rfl rfl
      rw [State.tally, State.tally, State.results, State.results, hphase]
      rfl

end TickWaves.ThreadPool
