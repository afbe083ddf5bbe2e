import TickWaves.Proofs.Tick.Accounting
import TickWaves.Proofs.Tick.Serializability

/-!
# A tick on a pool of threads is one of the interleavings

`Plan.execute` takes one order that the threads may take: a worker runs each system as soon
as it is handed in, and the coordinator then runs its own and fetches the results
(`exists_reachable_execute`).
-/

namespace TickWaves

open Relation

universe u v

namespace Settled

def untimed (entry : Settled) : Settled := { entry with elapsed? := none }

theorem find?_untimed (settled : List Settled) (node : Nat) :
    find? (settled.map untimed) node = (find? settled node).map untimed := by
  rw [find?, List.find?_map]
  rfl

theorem fates_untimed (settled : List Settled) : fates (settled.map untimed) = fates settled := by
  funext node
  rw [fates, find?_untimed, Option.map_map]
  rfl

end Settled

namespace Plan

variable {β : Type u} {σ : Type v}

theorem blocker?_untimed (plan : Plan β) (settled : List Settled) :
    plan.blocker? (settled.map Settled.untimed) = plan.blocker? settled := by
  funext node
  rw [blocker?_eq_blockerBy, blocker?_eq_blockerBy, Settled.fates_untimed]

theorem skip?_untimed (plan : Plan β) (settled : List Settled) :
    plan.skip? (settled.map Settled.untimed) = plan.skip? settled := by
  funext node
  rw [skip?, skip?, blocker?_untimed]

theorem map_untimed_runWave [Behaviour β σ] (plan : Plan β) (pool : Pool)
    (context : TickContext) (nodes : List Nat) (settled : List Settled)
    (workspace : Workspace σ) :
    (plan.runWave pool context nodes settled workspace).1.map Settled.untimed =
      settled.map Settled.untimed ++ nodes.filterMap (plan.skip? settled) ++
        (plan.dispatch pool context
          (nodes.filter fun node => (plan.blocker? settled node).isNone) workspace).1.map
            fun answer => ⟨answer.1, statusOf answer.2, none⟩ := by
  have hskip : (nodes.filterMap (plan.skip? settled)).map Settled.untimed =
      nodes.filterMap (plan.skip? settled) := by
    rw [List.map_filterMap]
    apply List.filterMap_congr
    intro node _
    rw [skip?, Option.map_map]
    rfl
  conv_rhs => rw [← hskip]
  rw [runWave]
  simp only [List.map_append, List.map_map]
  rfl

end Plan

namespace Interleaving

variable {β : Type u} {σ : Type v} [Behaviour β σ]

/-- Bodies end as they may end when they are run, and the token may be set at any time. -/
def conductOf (σ : Type v) [Behaviour β σ] (plan : Plan β) (context : TickContext) :
    Conduct where
  ends node ending _ := ∃ system, plan.systems[node]? = some system ∧
    ∃ lane, ∃ workspace : Workspace σ, (system.work context lane workspace).1 = ending
  interrupts := True

/-- A moment at which one worker at least is idle and no system is left to the crew.  The
results that wait in the slots are in the order in which they will be fetched. -/
structure State.IsCalm (state : State) (phase : Phase) (settled : List Settled)
    (wavesRun : Nat) (runnable : List Nat) (pending answers : List (Nat × TaskResult)) :
    Prop where
  phase : state.phase = phase
  settled : state.settled = settled
  wavesRun : state.wavesRun = wavesRun
  runnable : state.runnable = runnable
  queue : state.crew.queue = []
  workers : ∃ others, state.crew.workers = .idle :: others
  handles : state.handles = state.crew.replies.map Prod.fst
  pending : state.crew.replies.map (fun reply => (reply.1.unit, reply.2)) = pending
  answers : state.results = answers
  token : state.token = false

section Steps

variable {plan : Plan β} {conduct : Conduct} {state : State} {settled : List Settled}
variable {wavesRun : Nat} {runnable : List Nat} {pending answers : List (Nat × TaskResult)}

omit [Behaviour β σ]

/-- A system is handed in and run at once. -/
theorem State.IsCalm.hand {node : Nat} {pooled bound : List Nat} {ending : Ending}
    (hcalm : state.IsCalm (.submitting (node :: pooled) bound) settled wavesRun runnable
      pending answers) (hends : conduct.ends node ending false) :
    ∃ state', ReflTransGen (Step plan conduct) state state' ∧
      state'.IsCalm (.submitting pooled bound) settled wavesRun runnable
        (pending ++ [(node, ending.result)]) answers := by
  obtain ⟨others, hworkers⟩ := hcalm.workers
  let job : Job Nat := ⟨state.crew.nextSlot, node⟩
  have hqueue : (state.crew.submit node).queue = [job] := by
    rw [Crew.submit, hcalm.queue]
    rfl
  have hidle : (state.crew.submit node).workers = [] ++ .idle :: others := hworkers
  have halone : ∀ worker : Worker Nat,
      ([] ++ worker :: others : List (Worker Nat)) = [] ++ worker :: others := fun _ => rfl
  refine ⟨_, ((((ReflTransGen.single (.hand hcalm.phase)).tail
    (.work (.take hqueue hidle))).tail (.work (.begin (halone (.holding job))))).tail
    (.work (.finish (halone (.running job)) hends))).tail
    (.work (.reply (halone (.reporting job ending.result)))), ?_⟩
  constructor
  · rfl
  · exact hcalm.settled
  · exact hcalm.wavesRun
  · exact hcalm.runnable
  · rfl
  · exact ⟨others, rfl⟩
  · change state.handles ++ [job] = (state.crew.replies ++ [(job, ending.result)]).map Prod.fst
    rw [List.map_append, hcalm.handles]
    rfl
  · change (state.crew.replies ++ [(job, ending.result)]).map _ = _
    rw [List.map_append, hcalm.pending]
    rfl
  · exact hcalm.answers
  · simp [State.record, Event.cancels, hcalm.token]

/-- The coordinator runs a system itself. -/
theorem State.IsCalm.run {node : Nat} {bound : List Nat} {ending : Ending}
    (hcalm : state.IsCalm (.turning (node :: bound)) settled wavesRun runnable pending answers)
    (hends : conduct.ends node ending false) :
    ∃ state', ReflTransGen (Step plan conduct) state state' ∧
      state'.IsCalm (.turning bound) settled wavesRun runnable pending
        (answers ++ [(node, ending.result)]) := by
  refine ⟨_, (ReflTransGen.single (.enter hcalm.phase)).tail (.leave rfl hends), ?_⟩
  constructor
  · rfl
  · exact hcalm.settled
  · exact hcalm.wavesRun
  · exact hcalm.runnable
  · exact hcalm.queue
  · exact hcalm.workers
  · exact hcalm.handles
  · exact hcalm.pending
  · exact congrArg (· ++ [(node, ending.result)]) hcalm.answers
  · simp [State.record, Event.cancels, hcalm.token]

/-- The coordinator goes on to something else. -/
theorem State.IsCalm.turn {phase phase' : Phase}
    (hcalm : state.IsCalm phase settled wavesRun runnable pending answers)
    (hstep : state.phase = phase → Step plan conduct state { state with phase := phase' }) :
    ∃ state', ReflTransGen (Step plan conduct) state state' ∧
      state'.IsCalm phase' settled wavesRun runnable pending answers :=
  ⟨_, ReflTransGen.single (hstep hcalm.phase), { hcalm with phase := rfl }⟩

theorem State.IsCalm.fetch {answer : Nat × TaskResult}
    (hcalm : state.IsCalm .waiting settled wavesRun runnable (answer :: pending) answers) :
    ∃ state', ReflTransGen (Step plan conduct) state state' ∧
      state'.IsCalm .waiting settled wavesRun runnable pending (answers ++ [answer]) := by
  obtain ⟨⟨job, result⟩, replies, hreplies, hanswer, hpending⟩ :=
    List.map_eq_cons_iff.mp hcalm.pending
  have hhandles := hcalm.handles
  rw [hreplies] at hhandles
  have hfirst : state.crew.replies = [] ++ (job, result) :: replies := hreplies
  refine ⟨_, ReflTransGen.single (.fetch hcalm.phase hhandles hfirst rfl), ?_⟩
  constructor
  · exact hcalm.phase
  · exact hcalm.settled
  · exact hcalm.wavesRun
  · exact hcalm.runnable
  · exact hcalm.queue
  · exact hcalm.workers
  · rfl
  · exact hpending
  · rw [← hanswer, ← hcalm.answers]
  · exact hcalm.token

theorem State.IsCalm.fetchAll
    (hcalm : state.IsCalm .waiting settled wavesRun runnable pending answers) :
    ∃ state', ReflTransGen (Step plan conduct) state state' ∧
      state'.IsCalm .waiting settled wavesRun runnable [] (answers ++ pending) := by
  induction pending generalizing state answers with
  | nil => exact ⟨state, .refl, (List.append_nil answers).symm ▸ hcalm⟩
  | cons answer pending ih =>
      obtain ⟨middle, hfirst, hmiddle⟩ := hcalm.fetch
      obtain ⟨last, hrest, hlast⟩ := ih hmiddle
      rw [List.append_assoc, List.singleton_append] at hlast
      exact ⟨last, hfirst.trans hrest, hlast⟩

end Steps

section Tick

variable {plan : Plan β} {context : TickContext} {state : State} {settled : List Settled}
variable {wavesRun : Nat} {nodes : List Nat} {pending answers : List (Nat × TaskResult)}

/-- If the threads can get done with one system, whatever is left to do, then they can get
done with all of them. -/
theorem exists_reaches_runEach (At : List Nat → List (Nat × TaskResult) → State → Prop)
    (hone : ∀ {node rest results state ending}, At (node :: rest) results state →
      (conductOf σ plan context).ends node ending false →
      ∃ state', ReflTransGen (Step plan (conductOf σ plan context)) state state' ∧
        At rest (results ++ [(node, ending.result)]) state')
    (lanes : Nat → Lane) (hbound : ∀ node ∈ nodes, node < plan.systems.length)
    (workspace : Workspace σ) {results : List (Nat × TaskResult)} (hat : At nodes results state) :
    ∃ state', ReflTransGen (Step plan (conductOf σ plan context)) state state' ∧
      At [] (results ++ (plan.runEach context lanes nodes workspace).1) state' := by
  induction nodes generalizing state results workspace with
  | nil => exact ⟨state, .refl, (List.append_nil results).symm ▸ hat⟩
  | cons node rest ih =>
      have hsystem := List.getElem?_eq_getElem (hbound node List.mem_cons_self)
      obtain ⟨middle, hfirst, hmiddle⟩ := hone hat ⟨_, hsystem, lanes node, workspace, rfl⟩
      obtain ⟨last, hrest, hlast⟩ :=
        ih (fun other hother => hbound other (List.mem_cons_of_mem _ hother)) _ hmiddle
      rw [List.append_assoc, List.singleton_append] at hlast
      rw [Plan.runEach_cons hsystem]
      exact ⟨last, hfirst.trans hrest, hlast⟩

/-- The threads get done with a wave as `Plan.dispatch` does. -/
theorem State.IsCalm.dispatch {pool : Pool} {lane : Lane} (hlane : pool.lane? = some lane)
    (hbound : ∀ node ∈ nodes, node < plan.systems.length) (workspace : Workspace σ)
    (hcalm : state.IsCalm (.opening plan nodes) settled wavesRun nodes [] []) :
    ∃ state' answers, ReflTransGen (Step plan (conductOf σ plan context)) state state' ∧
      state'.IsCalm .waiting settled wavesRun nodes [] answers ∧
      (plan.dispatch pool context nodes workspace).1 =
        nodes.filterMap fun node => (answers.lookup node).map (node, ·) := by
  by_cases hlength : nodes.length = 1
  · obtain ⟨node, rfl⟩ := List.length_eq_one_iff.mp hlength
    obtain ⟨turned, hrun, hturned⟩ := exists_reaches_runEach
      (fun bound answers state =>
        state.IsCalm (.turning bound) settled wavesRun [node] [] answers)
      State.IsCalm.run (fun _ => .coordinator) hbound workspace hcalm
    obtain ⟨last, hwait, hlast⟩ := hturned.turn Step.wait
    refine ⟨last, _, hrun.trans hwait, hlast, ?_⟩
    rw [Plan.dispatch_singleton pool context (hbound node List.mem_cons_self)]
    have hsystem := List.getElem?_eq_getElem (hbound node List.mem_cons_self)
    rw [Plan.runEach_cons hsystem]
    simp [Plan.runEach]
  · rw [Phase.opening_of_length_ne_one plan hlength] at hcalm
    let pooled := plan.runEach context (plan.laneOf lane)
      (nodes.filter fun node => !plan.isBound node) workspace
    obtain ⟨handed, hhand, hhanded⟩ := exists_reaches_runEach
      (fun pooled pending state =>
        state.IsCalm (.submitting pooled _) settled wavesRun nodes pending [])
      State.IsCalm.hand (plan.laneOf lane)
      (fun node hnode => hbound node (List.mem_of_mem_filter hnode)) workspace hcalm
    obtain ⟨turned, hturn, hturned⟩ := hhanded.turn Step.turn
    obtain ⟨done, hrun, hdone⟩ := exists_reaches_runEach
      (fun bound answers state =>
        state.IsCalm (.turning bound) settled wavesRun nodes pooled.1 answers)
      State.IsCalm.run (plan.laneOf lane)
      (fun node hnode => hbound node (List.mem_of_mem_filter hnode)) pooled.2 hturned
    obtain ⟨waiting, hwait, hwaiting⟩ := hdone.turn Step.wait
    obtain ⟨last, hfetch, hlast⟩ := hwaiting.fetchAll
    refine ⟨last, _, ((hhand.trans hturn).trans (hrun.trans hwait)).trans hfetch, hlast, ?_⟩
    rw [Plan.dispatch_of_length_ne_one hlane context hbound hlength]
    rfl

/-- The threads get done with a wave as `Plan.runWave` does. -/
theorem State.IsCalm.wave {pool : Pool} {lane : Lane} (hlane : pool.lane? = some lane)
    {wave : Wave} (hwave : plan.waves[wavesRun]? = some wave)
    (hbound : ∀ node ∈ wave.nodes, node < plan.systems.length) (workspace : Workspace σ)
    (hcalm : state.IsCalm .gate (settled.map Settled.untimed) wavesRun [] [] []) :
    ∃ state', ReflTransGen (Step plan (conductOf σ plan context)) state state' ∧
      state'.IsCalm .gate
        ((plan.runWave pool context wave.nodes settled workspace).1.map Settled.untimed)
        (wavesRun + 1) [] [] [] := by
  let runnable := wave.nodes.filter fun node => (plan.blocker? settled node).isNone
  have hwave' : plan.waves[state.wavesRun]? = some wave := by
    rw [hcalm.wavesRun]
    exact hwave
  have hrunnable : (state.opened plan wave.nodes).runnable = runnable := by
    rw [State.opened, hcalm.settled, Plan.blocker?_untimed]
  have hopened : (state.opened plan wave.nodes).IsCalm (.opening plan runnable)
      (settled.map Settled.untimed ++ wave.nodes.filterMap (plan.skip? settled)) wavesRun
      runnable [] [] :=
    { hcalm with
      phase := congrArg (Phase.opening plan) hrunnable
      settled := by
        rw [State.opened, hcalm.settled, Plan.skip?_untimed]
      runnable := hrunnable }
  obtain ⟨last, answers, hrun, hlast, hdispatch⟩ := hopened.dispatch hlane
    (fun node hnode => hbound node (List.mem_of_mem_filter hnode)) workspace
  have hreplies : last.crew.replies = [] := List.map_eq_nil_iff.mp hlast.pending
  have hhandles : last.handles = [] := by
    rw [hlast.handles, hreplies]
    rfl
  refine ⟨last.closed, ((ReflTransGen.single (.start hcalm.phase hwave' hcalm.token)).trans
    hrun).tail (.settle hlast.phase hhandles), ?_⟩
  have hsettled : last.closed.settled =
      (plan.runWave pool context wave.nodes settled workspace).1.map Settled.untimed := by
    rw [Plan.map_untimed_runWave, hdispatch, List.map_filterMap, State.closed, hlast.settled,
      hlast.runnable, hlast.answers]
    refine congrArg₂ (· ++ ·) rfl (List.filterMap_congr ?_)
    intro node _
    rw [Option.map_map]
    rfl
  exact { hlast with
    phase := rfl
    settled := hsettled
    wavesRun := congrArg (· + 1) hlast.wavesRun
    runnable := rfl
    answers := rfl }

/-- The threads get done with the waves that are left as `Plan.runWaves` does. -/
theorem State.IsCalm.waves {pool : Pool} {lane : Lane} (hlane : pool.lane? = some lane)
    (hbound : ∀ wave ∈ plan.waves, ∀ node ∈ wave.nodes, node < plan.systems.length)
    (halt : Nat → σ → Bool) {waves : List Wave} (hwaves : plan.waves.drop wavesRun = waves)
    (workspace : Workspace σ)
    (hcalm : state.IsCalm .gate (settled.map Settled.untimed) wavesRun [] [] []) :
    let progress := plan.runWaves pool context halt waves wavesRun settled workspace
    ∃ state', ReflTransGen (Step plan (conductOf σ plan context)) state state' ∧
      state'.phase = .finished progress.isCancelled ∧
      state'.settled = progress.settled.map Settled.untimed ∧
      state'.wavesRun = progress.wavesRun := by
  induction waves generalizing state settled wavesRun workspace with
  | nil =>
      have hnone : plan.waves[state.wavesRun]? = none := by
        rw [hcalm.wavesRun, List.getElem?_eq_none_iff]
        exact List.drop_eq_nil_iff.mp hwaves
      exact ⟨_, ReflTransGen.single (.done hcalm.phase hnone), rfl, hcalm.settled,
        hcalm.wavesRun⟩
  | cons wave waves ih =>
      have hwave : plan.waves[wavesRun]? = some wave := by
        rw [← List.head?_drop, hwaves]
        rfl
      rw [Plan.runWaves]
      by_cases hhalt : halt wavesRun workspace.shared = true
      · rw [if_pos hhalt]
        have hwave' : plan.waves[state.wavesRun]? = some wave := by
          rw [hcalm.wavesRun]
          exact hwave
        have hinterrupt : Step plan (conductOf σ plan context) state
            { state with token := true } := .interrupt trivial
        exact ⟨_, (ReflTransGen.single hinterrupt).tail (.stop hcalm.phase hwave' rfl), rfl,
          hcalm.settled, hcalm.wavesRun⟩
      · rw [if_neg hhalt]
        obtain ⟨middle, hfirst, hmiddle⟩ := hcalm.wave hlane hwave
          (hbound wave (List.mem_of_getElem? hwave)) workspace
        have hrest : plan.waves.drop (wavesRun + 1) = waves := by
          rw [← List.tail_drop, hwaves]
          rfl
        obtain ⟨last, hreaches, hlast⟩ := ih hrest
          (plan.runWave pool context wave.nodes settled workspace).2 hmiddle
        exact ⟨last, hfirst.trans hreaches, hlast⟩

end Tick

/-- A tick on a pool of threads ends as one run of these threads does. -/
theorem exists_reachable_execute {systems : List (Descriptor β)} {tags : TagOrder}
    {generation : Nat} {plan : Plan β} (hbuild : Plan.build systems tags generation = .ok plan)
    (requested : Nat) (label : String) (context : TickContext) (halt : Nat → σ → Bool)
    (workspace : Workspace σ) :
    let pool : Pool := .threads requested label
    let report := (plan.execute pool context halt workspace).1
    ∃ state, Reachable plan (conductOf σ plan context) pool.workers false state ∧
      state.phase = .finished report.isCancelled ∧ state.wavesRun = report.wavesRun ∧
      (plan.outcomes state.settled).map Outcome.verdict =
        report.outcomes.map Outcome.verdict := by
  have hbound : ∀ wave ∈ plan.waves, ∀ node ∈ wave.nodes, node < plan.systems.length :=
    fun _ hwave _ => Plan.node_lt_length_of_build hbuild hwave
  have hworkers : ∃ others : List (Worker Nat),
      List.replicate (max requested 1) .idle = .idle :: others := by
    obtain ⟨count, hcount⟩ := Nat.exists_eq_add_of_le' (Nat.le_max_right requested 1)
    exact ⟨List.replicate count .idle, by rw [hcount, List.replicate_succ]⟩
  have hstart : (State.start (max requested 1) false).IsCalm .gate
      (([] : List Settled).map Settled.untimed) 0 [] [] [] :=
    ⟨rfl, rfl, rfl, rfl, rfl, hworkers, rfl, rfl, rfl, rfl⟩
  have hlane : (Pool.threads requested label).lane? = some .worker := rfl
  obtain ⟨state, hreaches, hphase, hsettled, hwavesRun⟩ :=
    hstart.waves hlane hbound halt rfl workspace
  refine ⟨state, hreaches, hphase, hwavesRun, ?_⟩
  let progress := plan.runWaves (.threads requested label) context halt plan.waves 0 [] workspace
  calc
    (plan.outcomes state.settled).map Outcome.verdict =
        plan.verdictsBy (Settled.fates state.settled) := Plan.map_verdict_outcomes plan _
    _ = plan.verdictsBy (Settled.fates progress.settled) := by
      rw [hsettled, Settled.fates_untimed]
      rfl
    _ = (plan.outcomes progress.settled).map Outcome.verdict :=
      (Plan.map_verdict_outcomes plan _).symm

end Interleaving

end TickWaves
