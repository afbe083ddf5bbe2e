import TickWaves.Proofs.Pool.Owner

/-!
# Units of work in turn

`Pool.submitAll` runs the units of a list one after the other and gives their results in the
order of the list.  This is one of the things that a pool of threads may do: its first worker
runs each unit as soon as it is handed in, and then the owner waits for all of them
(`ThreadPool.exists_reachable_submitAll`).
-/

namespace TickWaves.ThreadPool

open Relation

universe u

variable {ends : Nat → Ending → Bool → Prop}
variable {τ : Type u}

def endsOf (works : List (Work τ)) (unit : Nat) (ending : Ending) (_ : Bool) : Prop :=
  ∀ work, works[unit]? = some work → ∃ before, (work .worker before).1 = ending

/-- Every unit of a list ends in some way. -/
theorem exists_endsOf (works : List (Work τ)) (state : τ) (unit : Nat) :
    ∃ ending cancels, endsOf works unit ending cancels := by
  cases hunit : works[unit]? with
  | none => exact ⟨.done, false, fun _ hwork => by rw [hunit] at hwork; cases hwork⟩
  | some work =>
      refine ⟨(work .worker state).1, false, fun other hother => ⟨state, ?_⟩⟩
      rw [Option.some.inj (hother.symm.trans hunit)]

def repliesOf (results : List TaskResult) : List (Job Nat × TaskResult) :=
  results.zipIdx.map fun entry => (⟨entry.2, entry.2⟩, entry.1)

/-- A moment when the first worker is about the unit that was handed in last, while the
others wait. -/
def during (queue : List (Job Nat)) (worker : Worker Nat) (others : List (Worker Nat))
    (replies : List (Job Nat × TaskResult)) (submitted : Nat) (log : List (Nat × Event Nat)) :
    State where
  phase := .free
  crew :=
    { queue := queue
      workers := worker :: others
      replies := replies
      nextSlot := submitted
      isOpen := true }
  handles := List.range submitted
  returned := []
  log := log

/-- A moment when everything that was handed in has been run and no result was fetched. -/
def calm (others : List (Worker Nat)) (results : List TaskResult)
    (log : List (Nat × Event Nat)) : State :=
  during [] .idle others (repliesOf results) results.length log

/-- The first worker takes a step. -/
theorem exists_step_during {queue queue' : List (Job Nat)} {worker worker' : Worker Nat}
    {others : List (Worker Nat)} {replies replies' : List (Job Nat × TaskResult)}
    {submitted : Nat} {event? : Option (Event Nat)} (log : List (Nat × Event Nat))
    (hstep : Crew.Step ends (during queue worker others replies submitted log).crew event?
      (during queue' worker' others replies' submitted log).crew) :
    ∃ log', Step ends (during queue worker others replies submitted log)
      (during queue' worker' others replies' submitted log') := by
  have hby := Crew.Step.by_length (List.nil_append (worker :: others)).symm
    (List.nil_append (worker' :: others)).symm hstep
  exact ⟨_, Or.inr (.work hby)⟩

/-- The first worker runs a unit as soon as it is handed in. -/
theorem exists_calm_concat (others : List (Worker Nat)) (results : List TaskResult)
    (log : List (Nat × Event Nat)) {ending : Ending} {cancels : Bool}
    (hend : ends results.length ending cancels) :
    ∃ log', ReflTransGen (Step ends) (calm others results log)
      (calm others (results ++ [ending.result]) log') := by
  let submitted := results.length + 1
  let job : Job Nat := ⟨results.length, results.length⟩
  let replies := repliesOf results
  have hsubmit : Step ends (calm others results log)
      (during [job] .idle others replies submitted log) := by
    have hcall := @Call.submit (calm others results log) rfl rfl
      ⟨.idle, List.mem_cons_self, by rintro ⟨⟩⟩
    rw [during, List.range_succ]
    exact Or.inl hcall
  obtain ⟨log, htake⟩ : ∃ log', Step ends (during [job] .idle others replies submitted log)
      (during [] (.holding job) others replies submitted log') :=
    exists_step_during log (@Crew.Step.take _ ends _ job [] [] others rfl rfl)
  obtain ⟨log, hbegin⟩ : ∃ log', Step ends (during [] (.holding job) others replies submitted log)
      (during [] (.running job) others replies submitted log') :=
    exists_step_during log (@Crew.Step.begin _ ends _ job [] others rfl)
  obtain ⟨log, hfinish⟩ : ∃ log', Step ends (during [] (.running job) others replies submitted log)
      (during [] (.reporting job ending.result) others replies submitted log') :=
    exists_step_during log (@Crew.Step.finish _ ends _ job [] others ending cancels rfl hend)
  obtain ⟨log, hreply⟩ : ∃ log',
      Step ends (during [] (.reporting job ending.result) others replies submitted log)
        (during [] .idle others (replies ++ [(job, ending.result)]) submitted log') :=
    exists_step_during log (@Crew.Step.reply _ ends _ job ending.result [] others rfl)
  have hcalm : during [] .idle others (replies ++ [(job, ending.result)]) submitted log =
      calm others (results ++ [ending.result]) log := by
    rw [calm, List.length_append, List.length_singleton, repliesOf, List.zipIdx_append,
      List.map_append, Nat.zero_add]
    rfl
  refine ⟨log, ?_⟩
  rw [← hcalm]
  exact ((((ReflTransGen.single hsubmit).tail htake).tail hbegin).tail hfinish).tail hreply

/-- The first worker runs one unit after the other. -/
theorem exists_calm_submitAll {pool : Pool} (hlane : pool.lane? = some .worker)
    (others : List (Worker Nat)) {works before later : List (Work τ)}
    (hworks : works = before ++ later) {results : List TaskResult}
    (hlength : results.length = before.length) (log : List (Nat × Event Nat)) (state : τ) :
    ∃ log', ReflTransGen (Step (endsOf works)) (calm others results log)
      (calm others (results ++ (pool.submitAll later state).1) log') := by
  induction later generalizing before results log state with
  | nil =>
      refine ⟨log, ?_⟩
      rw [Pool.submitAll, List.append_nil]
  | cons work later ih =>
      have hend : endsOf works results.length (work .worker state).1 false := by
        intro other hother
        rw [hworks, hlength, List.getElem?_append_right le_rfl, Nat.sub_self,
          List.getElem?_cons_zero] at hother
        exact ⟨state, by rw [Option.some.inj hother]⟩
      obtain ⟨log, hone⟩ := exists_calm_concat others results log hend
      have hworks' : works = (before ++ [work]) ++ later := by rw [hworks, List.append_cons]
      have hlength' : (results ++ [(work .worker state).1.result]).length =
          (before ++ [work]).length := by
        rw [List.length_append, List.length_append, hlength]
        rfl
      obtain ⟨log, hrest⟩ := ih hworks' hlength' log (work .worker state).2
      refine ⟨log, hone.trans ?_⟩
      rw [Pool.submitAll, Pool.submit, hlane]
      rw [List.append_assoc] at hrest
      exact hrest

/-- A moment when the owner waits for a batch and the given results are in their slots. -/
def fetching (crew : Crew Nat) (batch : List Nat) (log : List (Nat × Event Nat))
    (results : List TaskResult) (entries : List (TaskResult × Nat)) : State where
  phase := .waiting batch (entries.map Prod.snd) results
  crew := { crew with replies := entries.map fun entry => (⟨entry.2, entry.2⟩, entry.1) }
  handles := []
  returned := []
  log := log

/-- The owner fetches the results one after the other. -/
theorem reflTransGen_fetching (crew : Crew Nat) (batch : List Nat) (log : List (Nat × Event Nat))
    (results : List TaskResult) (entries : List (TaskResult × Nat)) :
    ReflTransGen (Step ends) (fetching crew batch log results entries)
      (fetching crew batch log (results ++ entries.map Prod.fst) []) := by
  induction entries generalizing results with
  | nil =>
      rw [List.map_nil, List.append_nil]
  | cons entry entries ih =>
      have hrest := ih (results ++ [entry.1])
      rw [List.append_assoc] at hrest
      have hone := @Move.receive ends (fetching crew batch log results (entry :: entries)) batch
        (entries.map Prod.snd) entry.2 results ⟨entry.2, entry.2⟩ entry.1 [] _ rfl rfl rfl
      exact .head (Or.inr hone) hrest

/-- Running the units of a list in turn is something that a pool of threads may do. -/
theorem exists_reachable_submitAll (requested : Nat) (label : String) (works : List (Work τ))
    (state : τ) :
    ∃ moment, Reachable (endsOf works) requested label moment ∧ moment.phase = .free ∧
      moment.returned = [(List.range works.length,
        ((Pool.threads requested label).submitAll works state).1)] := by
  let results := ((Pool.threads requested label).submitAll works state).1
  obtain ⟨others, hothers⟩ : ∃ others, (Crew.ofSize (Pool.threads requested label).workers :
      Crew Nat).workers = .idle :: others := by
    have hpos : 0 < (Pool.threads requested label).workers :=
      Nat.lt_of_lt_of_le Nat.one_pos (Nat.le_max_right requested 1)
    obtain ⟨size, hsize⟩ := Nat.exists_eq_succ_of_ne_zero (Nat.ne_of_gt hpos)
    exact ⟨List.replicate size .idle, by rw [hsize]; rfl⟩
  have hstart : State.start requested label = calm others [] [] := by
    rw [State.start, calm, during, ← hothers]
    rfl
  obtain ⟨log, hrun⟩ : ∃ log, ReflTransGen (Step (endsOf works)) (calm others [] [])
      (calm others results log) :=
      exists_calm_submitAll rfl others (List.nil_append works).symm rfl [] state
  have hlength : results.length = works.length := Pool.length_submitAll _ works state
  have hbatch : List.range results.length = results.zipIdx.map Prod.snd := by
    rw [List.zipIdx_map_snd, List.range_eq_range']
  have hresults : results.zipIdx.map Prod.fst = results := List.zipIdx_map_fst 0 results
  have hwait : Step (endsOf works) (calm others results log)
      (fetching (calm others results log).crew (List.range results.length) log []
        results.zipIdx) := by
    have hcall := @Call.waitAll (calm others results log) (List.range results.length) [] rfl
      (List.Perm.of_eq (List.append_nil _).symm)
    rw [fetching, ← hbatch]
    exact Or.inl hcall
  have hfetch := @reflTransGen_fetching (endsOf works) (calm others results log).crew
    (List.range results.length) log [] results.zipIdx
  rw [hresults] at hfetch
  have hreturn := @Move.finish (endsOf works) (fetching (calm others results log).crew
    (List.range results.length) log results []) (List.range results.length) results rfl
  have hpath := ((hrun.tail hwait).trans hfetch).tail (Or.inr hreturn)
  rw [← hstart] at hpath
  refine ⟨_, hpath, rfl, ?_⟩
  rw [← hlength]
  rfl

end TickWaves.ThreadPool
