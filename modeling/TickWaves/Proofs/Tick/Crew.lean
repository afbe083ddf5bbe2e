import Mathlib.Algebra.BigOperators.Group.List.Basic
import Mathlib.Algebra.Order.Group.Multiset
import Mathlib.Tactic.Abel
import TickWaves.Tick.Pool

/-!
# The threads of a pool

A crew is a pool of threads at one moment: the jobs that wait in the queue, what each
worker is about, and the results that nobody has fetched yet.  `Crew.Step` lets any worker
take its next step.  A unit of work is first unstarted, then underway, then answered, and
`Tally` counts the units in each of these states; a step moves at most one unit
(`Crew.Step.moves`) and never loses a job (`Crew.Step.jobs_eq`).
-/

namespace TickWaves

universe u

/-- What is seen of a unit of work. -/
inductive Event (υ : Type u)
  /-- Its body begins. -/
  | began (unit : υ)
  /-- Its body ends, and perhaps the tick is to be cancelled. -/
  | ended (unit : υ) (ending : Ending) (cancels : Bool)

/-- A unit of work that was handed in, with the slot for its result. -/
structure Job (υ : Type u) where
  slot : Nat
  unit : υ

/-- What a worker thread is about. -/
inductive Worker (υ : Type u)
  /-- It waits for a job. -/
  | idle
  | holding (job : Job υ)
  | running (job : Job υ)
  /-- It has a result to put into the slot of the job. -/
  | reporting (job : Job υ) (result : TaskResult)
  /-- It has ended. -/
  | gone

/-- A pool of threads at one moment. -/
structure Crew (υ : Type u) where
  queue : List (Job υ)
  workers : List (Worker υ)
  replies : List (Job υ × TaskResult)
  nextSlot : Nat
  isOpen : Bool

/-- The number of units in each state. -/
@[ext]
structure Tally (υ : Type u) where
  unstarted : Multiset υ
  underway : Multiset υ
  answers : Multiset (υ × TaskResult)

variable {υ : Type u}

namespace Tally

instance : Zero (Tally υ) := ⟨⟨0, 0, 0⟩⟩

instance : Add (Tally υ) where
  add left right := ⟨left.unstarted + right.unstarted, left.underway + right.underway,
    left.answers + right.answers⟩

@[simp]
theorem unstarted_add (left right : Tally υ) :
    (left + right).unstarted = left.unstarted + right.unstarted :=
  rfl

@[simp]
theorem underway_add (left right : Tally υ) :
    (left + right).underway = left.underway + right.underway :=
  rfl

@[simp]
theorem answers_add (left right : Tally υ) :
    (left + right).answers = left.answers + right.answers :=
  rfl

instance : AddCommMonoid (Tally υ) where
  add_assoc _ _ _ := Tally.ext (add_assoc _ _ _) (add_assoc _ _ _) (add_assoc _ _ _)
  zero_add _ := Tally.ext (zero_add _) (zero_add _) (zero_add _)
  add_zero _ := Tally.ext (add_zero _) (add_zero _) (add_zero _)
  add_comm _ _ := Tally.ext (add_comm _ _) (add_comm _ _) (add_comm _ _)
  nsmul := nsmulRec

def ofUnstarted (units : Multiset υ) : Tally υ := ⟨units, 0, 0⟩

def ofUnderway (units : Multiset υ) : Tally υ := ⟨0, units, 0⟩

def ofAnswers (answers : Multiset (υ × TaskResult)) : Tally υ := ⟨0, 0, answers⟩

def total (tally : Tally υ) : Multiset υ :=
  tally.unstarted + tally.underway + tally.answers.map Prod.fst

theorem total_add (left right : Tally υ) : (left + right).total = left.total + right.total := by
  simp only [total, unstarted_add, underway_add, answers_add, Multiset.map_add]
  abel

def totalHom : Tally υ →+ Multiset υ where
  toFun := total
  map_zero' := rfl
  map_add' := total_add

def unstartedHom : Tally υ →+ Multiset υ where
  toFun := unstarted
  map_zero' := rfl
  map_add' := unstarted_add

def underwayHom : Tally υ →+ Multiset υ where
  toFun := underway
  map_zero' := rfl
  map_add' := underway_add

theorem eq_zero_of_total_eq_zero {tally : Tally υ} (htotal : tally.total = 0) : tally = 0 := by
  have hcard := congrArg Multiset.card htotal
  rw [total, Multiset.card_add, Multiset.card_add, Multiset.card_map, Multiset.card_zero] at hcard
  apply Tally.ext
  · exact Multiset.card_eq_zero.mp (by omega)
  · exact Multiset.card_eq_zero.mp (by omega)
  · exact Multiset.card_eq_zero.mp (by omega)

/-- One tally comes from another one by what is seen of one unit, or by nothing. -/
def Moves (event? : Option (Event υ)) (before after : Tally υ) : Prop :=
  match event? with
  | none => after = before
  | some (.began unit) =>
      before.unstarted = unit ::ₘ after.unstarted ∧
        after.underway = unit ::ₘ before.underway ∧ after.answers = before.answers
  | some (.ended unit ending _) =>
      after.unstarted = before.unstarted ∧ before.underway = unit ::ₘ after.underway ∧
        after.answers = (unit, ending.result) ::ₘ before.answers

theorem Moves.add_left {event? : Option (Event υ)} {before after : Tally υ}
    (hmoves : Moves event? before after) (other : Tally υ) :
    Moves event? (other + before) (other + after) := by
  match event?, hmoves with
  | none, hmoves => exact congrArg (other + ·) hmoves
  | some (.began unit), ⟨hunstarted, hunderway, hanswers⟩ =>
      refine ⟨?_, ?_, ?_⟩
      · rw [unstarted_add, hunstarted, Multiset.add_cons, unstarted_add]
      · rw [underway_add, hunderway, Multiset.add_cons, underway_add]
      · rw [answers_add, hanswers, answers_add]
  | some (.ended unit ending _), ⟨hunstarted, hunderway, hanswers⟩ =>
      refine ⟨?_, ?_, ?_⟩
      · rw [unstarted_add, hunstarted, unstarted_add]
      · rw [underway_add, hunderway, Multiset.add_cons, underway_add]
      · rw [answers_add, hanswers, Multiset.add_cons, answers_add]

theorem Moves.add_right {event? : Option (Event υ)} {before after : Tally υ}
    (hmoves : Moves event? before after) (other : Tally υ) :
    Moves event? (before + other) (after + other) := by
  rw [add_comm before, add_comm after]
  exact hmoves.add_left other

/-- No unit is lost or made. -/
theorem Moves.total_eq {event? : Option (Event υ)} {before after : Tally υ}
    (hmoves : Moves event? before after) : after.total = before.total := by
  match event?, hmoves with
  | none, hmoves => rw [hmoves]
  | some (.began unit), ⟨hunstarted, hunderway, hanswers⟩ =>
      rw [total, total, hunstarted, hunderway, hanswers, Multiset.cons_add, Multiset.add_cons]
  | some (.ended unit ending _), ⟨hunstarted, hunderway, hanswers⟩ =>
      rw [total, total, hunstarted, hunderway, hanswers, Multiset.map_cons, Multiset.add_cons,
        Multiset.add_cons, Multiset.cons_add]

end Tally

namespace Crew

def ofSize (size : Nat) : Crew υ where
  queue := []
  workers := List.replicate size .idle
  replies := []
  nextSlot := 0
  isOpen := true

def submit (crew : Crew υ) (unit : υ) : Crew υ :=
  { crew with
    queue := crew.queue ++ [⟨crew.nextSlot, unit⟩]
    nextSlot := crew.nextSlot + 1 }

/-- A worker takes its next step.  `ends` says how the body of a unit may end. -/
inductive Step (ends : υ → Ending → Bool → Prop) :
    Crew υ → Option (Event υ) → Crew υ → Prop
  /-- An idle worker takes the next job. -/
  | take {crew : Crew υ} {job : Job υ} {queue : List (Job υ)} {left right : List (Worker υ)} :
      crew.queue = job :: queue → crew.workers = left ++ .idle :: right →
        Step ends crew none
          { crew with queue := queue, workers := left ++ .holding job :: right }
  | begin {crew : Crew υ} {job : Job υ} {left right : List (Worker υ)} :
      crew.workers = left ++ .holding job :: right →
        Step ends crew (some (.began job.unit))
          { crew with workers := left ++ .running job :: right }
  /-- The body ends; a panic ends nothing else. -/
  | finish {crew : Crew υ} {job : Job υ} {left right : List (Worker υ)} {ending : Ending}
      {cancels : Bool} :
      crew.workers = left ++ .running job :: right → ends job.unit ending cancels →
        Step ends crew (some (.ended job.unit ending cancels))
          { crew with workers := left ++ .reporting job ending.result :: right }
  /-- The result goes into its slot. -/
  | reply {crew : Crew υ} {job : Job υ} {result : TaskResult} {left right : List (Worker υ)} :
      crew.workers = left ++ .reporting job result :: right →
        Step ends crew none
          { crew with
            workers := left ++ .idle :: right
            replies := crew.replies ++ [(job, result)] }
  /-- Once no job can come any more, an idle worker ends. -/
  | leave {crew : Crew υ} {left right : List (Worker υ)} :
      crew.isOpen = false → crew.queue = [] → crew.workers = left ++ .idle :: right →
        Step ends crew none { crew with workers := left ++ .gone :: right }

variable {M : Type*} [AddCommMonoid M]

/-- What the jobs of a crew add up to, if the weight of a job depends on how far it is. -/
def weigh (waiting running : Job υ → M) (replied : Job υ × TaskResult → M) (crew : Crew υ) : M :=
  (crew.queue.map waiting).sum +
    (crew.workers.map fun worker =>
      match worker with
      | .holding job => waiting job
      | .running job => running job
      | .reporting job result => replied (job, result)
      | _ => 0).sum +
    (crew.replies.map replied).sum

def jobs (crew : Crew υ) : Multiset (Job υ) :=
  crew.weigh (fun job => {job}) (fun job => {job}) fun reply => {reply.1}

def tally (crew : Crew υ) : Tally υ :=
  crew.weigh (fun job => .ofUnstarted {job.unit}) (fun job => .ofUnderway {job.unit})
    fun reply => .ofAnswers {(reply.1.unit, reply.2)}

section Weigh

variable (waiting running : Job υ → M) (replied : Job υ × TaskResult → M)

theorem map_weigh {N : Type*} [AddCommMonoid N] (f : M →+ N) (crew : Crew υ) :
    f (crew.weigh waiting running replied) =
      crew.weigh (fun job => f (waiting job)) (fun job => f (running job))
        fun reply => f (replied reply) := by
  simp only [weigh, map_add, map_list_sum, List.map_map]
  congr 4
  funext worker
  cases worker <;> simp

theorem weigh_submit (crew : Crew υ) (unit : υ) :
    (crew.submit unit).weigh waiting running replied =
      waiting ⟨crew.nextSlot, unit⟩ + crew.weigh waiting running replied := by
  simp only [weigh, submit, List.map_append, List.map_singleton, List.sum_append,
    List.sum_singleton]
  abel

theorem weigh_of_replies {crew : Crew υ} {left right : List (Job υ × TaskResult)}
    {reply : Job υ × TaskResult} (hreplies : crew.replies = left ++ reply :: right) :
    crew.weigh waiting running replied =
      replied reply + { crew with replies := left ++ right }.weigh waiting running replied := by
  simp only [weigh, hreplies, List.map_append, List.map_cons, List.sum_append, List.sum_cons]
  abel

/-- A step leaves the weight as it is, or moves one job to its next state. -/
theorem Step.weigh_cases {ends : υ → Ending → Bool → Prop} {crew crew' : Crew υ}
    {event? : Option (Event υ)} (hstep : Step ends crew event? crew') :
    (event? = none ∧
        crew'.weigh waiting running replied = crew.weigh waiting running replied) ∨
      (∃ job rest, event? = some (.began job.unit) ∧
        crew.weigh waiting running replied = rest + waiting job ∧
        crew'.weigh waiting running replied = rest + running job) ∨
      ∃ job ending cancels rest, event? = some (.ended job.unit ending cancels) ∧
        crew.weigh waiting running replied = rest + running job ∧
        crew'.weigh waiting running replied = rest + replied (job, ending.result) := by
  cases hstep with
  | take hqueue hworkers =>
      refine Or.inl ⟨rfl, ?_⟩
      simp only [weigh, hqueue, hworkers, List.map_append, List.map_cons, List.sum_append,
        List.sum_cons]
      abel
  | @begin job left right hworkers =>
      refine Or.inr (Or.inl ⟨job,
        { crew with workers := left ++ right }.weigh waiting running replied, rfl, ?_, ?_⟩)
      · simp only [weigh, hworkers, List.map_append, List.map_cons, List.sum_append,
          List.sum_cons]
        abel
      · simp only [weigh, List.map_append, List.map_cons, List.sum_append, List.sum_cons]
        abel
  | @finish job left right ending cancels hworkers _ =>
      refine Or.inr (Or.inr ⟨job, ending, cancels,
        { crew with workers := left ++ right }.weigh waiting running replied, rfl, ?_, ?_⟩)
      · simp only [weigh, hworkers, List.map_append, List.map_cons, List.sum_append,
          List.sum_cons]
        abel
      · simp only [weigh, List.map_append, List.map_cons, List.sum_append, List.sum_cons]
        abel
  | reply hworkers =>
      refine Or.inl ⟨rfl, ?_⟩
      simp only [weigh, hworkers, List.map_append, List.map_cons, List.map_nil, List.sum_append,
        List.sum_cons, List.sum_nil]
      abel
  | leave _ _ hworkers =>
      refine Or.inl ⟨rfl, ?_⟩
      simp only [weigh, hworkers, List.map_append, List.map_cons, List.sum_append,
        List.sum_cons]

end Weigh

variable {ends : υ → Ending → Bool → Prop} {crew crew' : Crew υ} {event? : Option (Event υ)}

/-- The units of the jobs are the units that are counted. -/
theorem map_unit_jobs (crew : Crew υ) : crew.jobs.map Job.unit = crew.tally.total := by
  have hjobs := map_weigh (fun job => {job}) (fun job => {job}) (fun reply => {reply.1})
    (Multiset.mapAddMonoidHom Job.unit) crew
  have htally := map_weigh (fun job => .ofUnstarted {job.unit})
    (fun job => .ofUnderway {job.unit}) (fun reply => .ofAnswers {(reply.1.unit, reply.2)})
    Tally.totalHom crew
  exact hjobs.trans htally.symm

/-- The units underway are those whose bodies some worker is inside. -/
theorem mem_underway_tally {crew : Crew υ} {unit : υ} :
    unit ∈ crew.tally.underway ↔ ∃ job, Worker.running job ∈ crew.workers ∧ job.unit = unit := by
  have hunderway : crew.tally.underway =
      crew.weigh (fun _ => 0) (fun job => {job.unit}) fun _ => 0 :=
    map_weigh _ _ _ Tally.underwayHom crew
  rw [hunderway]
  simp only [weigh, List.map_const', List.sum_replicate, nsmul_zero, zero_add, add_zero]
  induction crew.workers with
  | nil => simp
  | cons worker workers ih =>
      rw [List.map_cons, List.sum_cons, Multiset.mem_add]
      refine (or_congr_right ih).trans ?_
      cases worker <;> simp [eq_comm]

/-- A step moves at most one unit, and what is seen says which one. -/
theorem Step.moves (hstep : Step ends crew event? crew') :
    Tally.Moves event? crew.tally crew'.tally := by
  rcases hstep.weigh_cases (fun job => Tally.ofUnstarted {job.unit})
      (fun job => .ofUnderway {job.unit}) (fun reply => .ofAnswers {(reply.1.unit, reply.2)}) with
    ⟨rfl, hsame⟩ | ⟨job, rest, rfl, hbefore, hafter⟩ |
      ⟨job, ending, cancels, rest, rfl, hbefore, hafter⟩
  · exact hsame
  · rw [tally, tally, hbefore, hafter]
    apply Tally.Moves.add_left
    exact ⟨rfl, rfl, rfl⟩
  · rw [tally, tally, hbefore, hafter]
    apply Tally.Moves.add_left
    exact ⟨rfl, rfl, rfl⟩

/-- No job is lost or made by a step. -/
theorem Step.jobs_eq (hstep : Step ends crew event? crew') : crew'.jobs = crew.jobs := by
  rcases hstep.weigh_cases (fun job => ({job} : Multiset (Job υ))) (fun job => {job})
      (fun reply => {reply.1}) with
    ⟨-, hsame⟩ | ⟨job, rest, -, hbefore, hafter⟩ | ⟨job, ending, cancels, rest, -, hbefore, hafter⟩
  · exact hsame
  · exact hafter.trans hbefore.symm
  · exact hafter.trans hbefore.symm

theorem Step.nextSlot_eq (hstep : Step ends crew event? crew') :
    crew'.nextSlot = crew.nextSlot := by
  cases hstep <;> rfl

theorem tally_submit (crew : Crew υ) (unit : υ) :
    (crew.submit unit).tally = .ofUnstarted {unit} + crew.tally :=
  weigh_submit _ _ _ crew unit

theorem jobs_submit (crew : Crew υ) (unit : υ) :
    (crew.submit unit).jobs = {⟨crew.nextSlot, unit⟩} + crew.jobs :=
  weigh_submit _ _ _ crew unit

theorem tally_of_replies {left right : List (Job υ × TaskResult)} {reply : Job υ × TaskResult}
    (hreplies : crew.replies = left ++ reply :: right) :
    crew.tally = .ofAnswers {(reply.1.unit, reply.2)} +
      { crew with replies := left ++ right }.tally :=
  weigh_of_replies _ _ _ hreplies

theorem jobs_of_replies {left right : List (Job υ × TaskResult)} {reply : Job υ × TaskResult}
    (hreplies : crew.replies = left ++ reply :: right) :
    crew.jobs = {reply.1} + { crew with replies := left ++ right }.jobs :=
  weigh_of_replies _ _ _ hreplies

end Crew

end TickWaves
