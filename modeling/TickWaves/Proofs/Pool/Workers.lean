import TickWaves.Proofs.Order.Lookup
import TickWaves.Proofs.Tick.Progress

/-!
# One worker among others

`Crew.StepBy` is a step of a worker that is known by its place.  Whatever the others do and
however its job ends, a worker of an open pool finishes the job by its own steps and is free
for the next one (`Crew.exists_idle_of_ne_gone`).  It ends only when the queue is closed and
empty (`Crew.IsManned`), so at last the workers rest, and everything that was handed in has
its result (`Crew.IsManned.exists_step_or_rests`).
-/

namespace TickWaves.Crew

open Relation

universe u

variable {υ : Type u}

/-- The given worker takes its next step; no other worker does. -/
def StepBy (ends : υ → Ending → Bool → Prop) (worker : Nat) (crew : Crew υ)
    (event? : Option (Event υ)) (crew' : Crew υ) : Prop :=
  Step ends crew event? crew' ∧
    ∀ other, other ≠ worker → crew'.workers[other]? = crew.workers[other]?

/-- The pool has workers, and one of them has ended only if nothing is left to do. -/
structure IsManned (crew : Crew υ) : Prop where
  manned : crew.workers ≠ []
  gone : Worker.gone ∈ crew.workers → crew.isOpen = false ∧ crew.queue = []

def awake (crew : Crew υ) : Nat :=
  (crew.workers.map fun worker =>
    match worker with
    | .gone => 0
    | _ => 1).sum

variable {ends : υ → Ending → Bool → Prop} {worker : Nat} {crew crew' : Crew υ}
variable {event? : Option (Event υ)}

theorem isManned_ofSize {size : Nat} (hsize : 0 < size) : (ofSize size : Crew υ).IsManned where
  manned := (isStaffed_ofSize hsize).manned
  gone hgone := absurd hgone (isStaffed_ofSize hsize).stays

/-- As long as the pool is open, none of its workers ends. -/
theorem IsManned.isStaffed (hmanned : crew.IsManned) (hopen : crew.isOpen = true) :
    crew.IsStaffed where
  isOpen := hopen
  manned := hmanned.manned
  stays hgone := Bool.false_ne_true ((hmanned.gone hgone).1.symm.trans hopen)

theorem Step.isOpen_eq (hstep : Step ends crew event? crew') : crew'.isOpen = crew.isOpen := by
  cases hstep <;> rfl

theorem Step.length_workers (hstep : Step ends crew event? crew') :
    crew'.workers.length = crew.workers.length := by
  cases hstep with
  | take _ hworkers => simp [hworkers]
  | begin hworkers => simp [hworkers]
  | finish hworkers _ => simp [hworkers]
  | reply hworkers => simp [hworkers]
  | leave _ _ hworkers => simp [hworkers]

theorem Step.isManned (hstep : Step ends crew event? crew') (hmanned : crew.IsManned) :
    crew'.IsManned := by
  have hsome : crew'.workers ≠ [] := by
    have hlength := List.length_pos_iff.mpr hmanned.manned
    rw [← hstep.length_workers] at hlength
    exact List.length_pos_iff.mp hlength
  -- a worker that takes a step and does not end leaves those that have ended as they were
  have hsame : ∀ {left right : List (Worker υ)} {old new : Worker υ},
      crew.workers = left ++ old :: right → new ≠ .gone →
        Worker.gone ∈ left ++ new :: right → crew.isOpen = false ∧ crew.queue = [] := by
    intro left right old new hworkers hnew hgone
    apply hmanned.gone
    rw [hworkers]
    rcases List.mem_append.mp hgone with hleft | hright
    · exact List.mem_append_left _ hleft
    · rcases List.mem_cons.mp hright with heq | hright
      · exact absurd heq.symm hnew
      · exact List.mem_append_right _ (List.mem_cons_of_mem _ hright)
  refine ⟨hsome, ?_⟩
  cases hstep with
  | take hqueue hworkers =>
      intro hgone
      have hempty := (hsame hworkers (by rintro ⟨⟩) hgone).2
      rw [hqueue] at hempty
      cases hempty
  | begin hworkers => exact hsame hworkers (by rintro ⟨⟩)
  | finish hworkers _ => exact hsame hworkers (by rintro ⟨⟩)
  | reply hworkers => exact hsame hworkers (by rintro ⟨⟩)
  | leave hclosed hqueue _ => exact fun _ => ⟨hclosed, hqueue⟩

/-- Every step is a step towards the end of the work and of the workers. -/
theorem Step.effort_add_awake_lt (hstep : Step ends crew event? crew') :
    crew'.effort + crew'.awake < crew.effort + crew.awake := by
  cases hstep with
  | take hqueue hworkers =>
      simp only [effort, awake, hqueue, hworkers, List.map_append, List.map_cons,
        List.sum_append, List.sum_cons, List.length_cons, Worker.effort]
      omega
  | begin hworkers =>
      simp only [effort, awake, hworkers, List.map_append, List.map_cons, List.sum_append,
        List.sum_cons, Worker.effort]
      omega
  | finish hworkers _ =>
      simp only [effort, awake, hworkers, List.map_append, List.map_cons, List.sum_append,
        List.sum_cons, Worker.effort]
      omega
  | reply hworkers =>
      simp only [effort, awake, hworkers, List.map_append, List.map_cons, List.sum_append,
        List.sum_cons, List.length_append, List.length_singleton, Worker.effort]
      omega
  | leave _ _ hworkers =>
      simp only [effort, awake, hworkers, List.map_append, List.map_cons, List.sum_append,
        List.sum_cons, Worker.effort]
      omega

/-- How a step changes the worker that takes it. -/
inductive Turns : Option (Event υ) → Worker υ → Worker υ → Prop
  | take (job : Job υ) : Turns none .idle (.holding job)
  | begin (job : Job υ) : Turns (some (.began job.unit)) (.holding job) (.running job)
  | finish (job : Job υ) (ending : Ending) (cancels : Bool) :
      Turns (some (.ended job.unit ending cancels)) (.running job) (.reporting job ending.result)
  | reply (job : Job υ) (result : TaskResult) : Turns none (.reporting job result) .idle
  | leave : Turns none .idle .gone

/-- A worker goes on by itself. -/
def GoesOn (ends : υ → Ending → Bool → Prop) (worker : Nat) (crew crew' : Crew υ) : Prop :=
  ∃ event?, StepBy ends worker crew event? crew'

section Places

variable {left right : List (Worker υ)} {old new : Worker υ}

theorem getElem?_length_workers (left right : List (Worker υ)) (new : Worker υ) :
    (left ++ new :: right)[left.length]? = some new := by
  rw [List.getElem?_append_right le_rfl, Nat.sub_self, List.getElem?_cons_zero]

/-- The worker that changes is the one that takes the step. -/
theorem length_eq_of_others (hworkers : crew.workers = left ++ old :: right) (hne : new ≠ old)
    (hothers : ∀ other, other ≠ worker →
      (left ++ new :: right)[other]? = crew.workers[other]?) : left.length = worker := by
  by_contra hother
  have heq := hothers left.length hother
  rw [hworkers, getElem?_length_workers, getElem?_length_workers] at heq
  exact hne (Option.some.inj heq)

/-- A step that changes one worker is a step of that worker. -/
theorem Step.by_length (hworkers : crew.workers = left ++ old :: right)
    (hworkers' : crew'.workers = left ++ new :: right) (hstep : Step ends crew event? crew') :
    StepBy ends left.length crew event? crew' := by
  refine ⟨hstep, fun other hother => ?_⟩
  rw [hworkers, hworkers']
  rcases Nat.lt_or_gt_of_ne hother with hlt | hgt
  · rw [List.getElem?_append_left hlt, List.getElem?_append_left hlt]
  · obtain ⟨distance, rfl⟩ := Nat.exists_eq_add_of_lt hgt
    rw [List.getElem?_append_right (by omega), List.getElem?_append_right (by omega),
      Nat.add_assoc, Nat.add_sub_cancel_left, List.getElem?_cons_succ, List.getElem?_cons_succ]

end Places

/-- A step changes its worker in one of five ways. -/
theorem StepBy.turns (hstep : StepBy ends worker crew event? crew') :
    ∃ old new, crew.workers[worker]? = some old ∧ crew'.workers[worker]? = some new ∧
      Turns event? old new := by
  obtain ⟨hstep, hothers⟩ := hstep
  have hturn : ∀ {left right : List (Worker υ)} {old new : Worker υ},
      crew.workers = left ++ old :: right → crew'.workers = left ++ new :: right → new ≠ old →
        Turns event? old new → ∃ old new, crew.workers[worker]? = some old ∧
          crew'.workers[worker]? = some new ∧ Turns event? old new := by
    intro left right old new hworkers hworkers' hne hturns
    rw [hworkers'] at hothers
    obtain rfl := length_eq_of_others hworkers hne hothers
    refine ⟨old, new, ?_, ?_, hturns⟩
    · rw [hworkers, getElem?_length_workers]
    · rw [hworkers', getElem?_length_workers]
  cases hstep with
  | @take job _ _ _ _ hworkers => exact hturn hworkers rfl (by rintro ⟨⟩) (.take job)
  | @begin job _ _ hworkers => exact hturn hworkers rfl (by rintro ⟨⟩) (.begin job)
  | @finish job _ _ ending cancels hworkers _ =>
      exact hturn hworkers rfl (by rintro ⟨⟩) (.finish job ending cancels)
  | @reply job result _ _ hworkers => exact hturn hworkers rfl (by rintro ⟨⟩) (.reply job result)
  | leave _ _ hworkers => exact hturn hworkers rfl (by rintro ⟨⟩) .leave

/-- A worker is inside a body only because it began it. -/
theorem StepBy.running_cases (hstep : StepBy ends worker crew event? crew') {other : Nat}
    {job : Job υ} (hrunning : crew'.workers[other]? = some (.running job)) :
    crew.workers[other]? = some (.running job) ∨
      other = worker ∧ event? = some (.began job.unit) := by
  by_cases hother : other = worker
  · obtain ⟨old, new, -, hnew, hturns⟩ := hstep.turns
    rw [hother, hnew] at hrunning
    cases hrunning
    cases hturns
    exact Or.inr ⟨hother, rfl⟩
  · rw [hstep.2 other hother] at hrunning
    exact Or.inl hrunning

/-- Only the worker that is inside a body can end it. -/
theorem StepBy.exists_running {unit : υ} {ending : Ending} {cancels : Bool}
    (hstep : StepBy ends worker crew (some (.ended unit ending cancels)) crew') :
    ∃ job, crew.workers[worker]? = some (.running job) ∧ job.unit = unit := by
  obtain ⟨old, new, hold, -, hturns⟩ := hstep.turns
  cases hturns with
  | finish job => exact ⟨job, hold, rfl⟩

theorem Step.ends_of_ended {unit : υ} {ending : Ending} {cancels : Bool}
    (hstep : Step ends crew (some (.ended unit ending cancels)) crew') :
    ends unit ending cancels := by
  cases hstep with
  | finish _ hend => exact hend

/-- A worker that has ended takes no step. -/
theorem StepBy.gone_of_gone (hstep : StepBy ends worker crew event? crew') {other : Nat}
    (hgone : crew.workers[other]? = some .gone) : crew'.workers[other]? = some .gone := by
  by_cases hother : other = worker
  · obtain ⟨old, new, hold, -, hturns⟩ := hstep.turns
    rw [← hother, hgone] at hold
    cases hold
    cases hturns
  · rw [hstep.2 other hother, hgone]

section Alone

variable (hends : ∀ unit, ∃ ending cancels, ends unit ending cancels)
include hends

/-- A worker that has not ended gets free by its own steps, however its job ends. -/
theorem exists_idle_of_ne_gone {now : Worker υ} (hworker : crew.workers[worker]? = some now)
    (hawake : now ≠ .gone) :
    ∃ crew', ReflTransGen (GoesOn ends worker) crew crew' ∧
      crew'.workers[worker]? = some .idle ∧ crew'.queue = crew.queue := by
  have hreport : ∀ (crew : Crew υ) (job : Job υ) (result : TaskResult),
      crew.workers[worker]? = some (.reporting job result) →
        ∃ crew', ReflTransGen (GoesOn ends worker) crew crew' ∧
          crew'.workers[worker]? = some .idle ∧ crew'.queue = crew.queue := by
    intro crew job result hworker
    obtain ⟨left, right, hworkers, rfl⟩ := exists_eq_append_of_getElem? hworker
    refine ⟨_, .single ⟨_, Step.by_length hworkers rfl (.reply hworkers)⟩, ?_, rfl⟩
    exact getElem?_length_workers _ _ _
  have hrun : ∀ (crew : Crew υ) (job : Job υ), crew.workers[worker]? = some (.running job) →
      ∃ crew', ReflTransGen (GoesOn ends worker) crew crew' ∧
        crew'.workers[worker]? = some .idle ∧ crew'.queue = crew.queue := by
    intro crew job hworker
    obtain ⟨left, right, hworkers, rfl⟩ := exists_eq_append_of_getElem? hworker
    obtain ⟨ending, cancels, hend⟩ := hends job.unit
    obtain ⟨crew', hpath, hidle, hqueue⟩ := hreport
      { crew with workers := left ++ .reporting job ending.result :: right } job ending.result
      (getElem?_length_workers _ _ _)
    exact ⟨crew', .head ⟨_, Step.by_length hworkers rfl (.finish hworkers hend)⟩ hpath, hidle,
      hqueue⟩
  cases now with
  | idle => exact ⟨crew, .refl, hworker, rfl⟩
  | holding job =>
      obtain ⟨left, right, hworkers, rfl⟩ := exists_eq_append_of_getElem? hworker
      obtain ⟨crew', hpath, hidle, hqueue⟩ := hrun
        { crew with workers := left ++ .running job :: right } job
        (getElem?_length_workers _ _ _)
      exact ⟨crew', .head ⟨_, Step.by_length hworkers rfl (.begin hworkers)⟩ hpath, hidle,
        hqueue⟩
  | running job => exact hrun crew job hworker
  | reporting job result => exact hreport crew job result hworker
  | gone => exact absurd rfl hawake

end Alone

/-- A worker can go on, or the pool rests, and then it is open or all workers have ended. -/
theorem IsManned.exists_step_or_rests (hmanned : crew.IsManned)
    (hends : ∀ unit, ∃ ending cancels, ends unit ending cancels) :
    (∃ worker event? crew', StepBy ends worker crew event? crew') ∨
      crew.Rests ∧ (crew.isOpen = false → ∀ worker ∈ crew.workers, worker = .gone) := by
  by_cases hstuck : ∃ worker event? crew', StepBy ends worker crew event? crew'
  · exact Or.inl hstuck
  have hno : ∀ {left right : List (Worker υ)} {old new : Worker υ} {event? : Option (Event υ)}
      {crew' : Crew υ}, crew.workers = left ++ old :: right →
        crew'.workers = left ++ new :: right → ¬ Step ends crew event? crew' :=
    fun hworkers hworkers' hstep => hstuck ⟨_, _, _, Step.by_length hworkers hworkers' hstep⟩
  have hrests : ∀ worker ∈ crew.workers, worker = .idle ∨ worker = .gone := by
    intro worker hworker
    obtain ⟨left, right, hworkers⟩ := List.append_of_mem hworker
    cases worker with
    | idle => exact Or.inl rfl
    | holding job => exact absurd (.begin hworkers) (hno hworkers rfl)
    | running job =>
        obtain ⟨ending, cancels, hend⟩ := hends job.unit
        exact absurd (.finish hworkers hend) (hno hworkers rfl)
    | reporting job result => exact absurd (.reply hworkers) (hno hworkers rfl)
    | gone => exact Or.inr rfl
  have hqueue : crew.queue = [] := by
    by_contra hsome
    obtain ⟨job, queue, hqueue⟩ := List.exists_cons_of_ne_nil hsome
    obtain ⟨worker, hworker⟩ := List.exists_mem_of_ne_nil _ hmanned.manned
    obtain ⟨left, right, hworkers⟩ := List.append_of_mem hworker
    rcases hrests worker hworker with rfl | rfl
    · exact hno hworkers rfl (.take hqueue hworkers)
    · exact hsome (hmanned.gone hworker).2
  refine Or.inr ⟨⟨hqueue, hrests⟩, fun hclosed worker hworker => ?_⟩
  refine (hrests worker hworker).resolve_left ?_
  rintro rfl
  obtain ⟨left, right, hworkers⟩ := List.append_of_mem hworker
  exact hno hworkers rfl (.leave hclosed hqueue hworkers)

end TickWaves.Crew
