import TickWaves.Proofs.Tick.Attendance
import TickWaves.Proofs.Tick.Policy

/-!
# The running tick is one of those on any pool

Whatever a pool may do with the systems that are handed to it comes true in some dispatch
(`exists_reachable_of_handles`).  So the results that `Plan.dispatch` returns are those of a
dispatch, and the bodies that it runs are the ones that are seen there
(`isOnAnyPool_dispatch`); by induction over the waves the same holds of a whole tick.
-/

namespace TickWaves

open Relation

universe u v

variable {β : Type u} {σ : Type v}

namespace Delegation

open Interleaving (Phase)

/-! ## What a pool may do comes true -/

section Machine

variable {handles : List Handle} {own : List (Nat × Ending)} {answers : List TaskResult}
variable {log : List Sign}

/-- A system is handed in, and the pool deals with it at once. -/
theorem reaches_hand (handle : Handle) (hanswered : handle.result? ≠ none)
    (pooled bound : List Nat) :
    ReflTransGen Step ⟨.submitting (handle.node :: pooled) bound, handles, own, answers, log⟩
      ⟨.submitting pooled bound, handles ++ [handle], own, answers, log ++ handle.signs⟩ := by
  obtain ⟨node, stage⟩ := handle
  have hhanded : ReflTransGen Step
      ⟨.submitting (node :: pooled) bound, handles, own, answers, log⟩ _ := .single (.hand rfl)
  cases stage with
  | accepted => exact absurd rfl hanswered
  | running lane => exact absurd rfl hanswered
  | answered lane ending =>
      have hran := (hhanded.tail (.work rfl (.begin node lane))).tail
        (.work rfl (.finish node lane ending))
      simpa [Handle.signs] using hran
  | refused =>
      have hrefused := hhanded.tail (.work rfl (.refuse node))
      simpa [Handle.signs] using hrefused

theorem reaches_handAll (todo : List Handle)
    (hanswered : ∀ handle ∈ todo, handle.result? ≠ none) (bound : List Nat) :
    ReflTransGen Step
      ⟨.submitting (todo.map Handle.node) bound, handles, own, answers, log⟩
      ⟨.submitting [] bound, handles ++ todo, own, answers,
        log ++ todo.flatMap Handle.signs⟩ := by
  induction todo generalizing handles log with
  | nil =>
      rw [List.append_nil, List.flatMap_nil, List.append_nil]
      exact .refl
  | cons handle todo ih =>
      have hfirst : ReflTransGen Step
          ⟨.submitting (handle.node :: todo.map Handle.node) bound, handles, own, answers, log⟩
          ⟨.submitting (todo.map Handle.node) bound, handles ++ [handle], own, answers,
            log ++ handle.signs⟩ :=
        reaches_hand handle (hanswered handle List.mem_cons_self) _ bound
      have hrest := hfirst.trans
        (ih fun other hother => hanswered other (List.mem_cons_of_mem _ hother))
      simpa using hrest

/-- The coordinator runs its systems. -/
theorem reaches_runAll (todo : List (Nat × Ending)) :
    ReflTransGen Step ⟨.turning (todo.map Prod.fst), handles, own, answers, log⟩
      ⟨.turning [], handles, own ++ todo, answers, log ++ todo.flatMap ownSigns⟩ := by
  induction todo generalizing own log with
  | nil =>
      rw [List.append_nil, List.flatMap_nil, List.append_nil]
      exact .refl
  | cons entry todo ih =>
      have hfirst : ReflTransGen Step
          ⟨.turning (entry.1 :: todo.map Prod.fst), handles, own, answers, log⟩
          ⟨.turning (todo.map Prod.fst), handles, own ++ [entry], answers,
            log ++ [.began entry.1 .coordinator] ++ [.ended entry.1 entry.2]⟩ :=
        (ReflTransGen.single (.enter rfl)).tail (.leave rfl)
      have hrest := hfirst.trans ih
      simpa [ownSigns] using hrest

/-- The coordinator fetches the answers that are left. -/
theorem reaches_fetchAll (fetched left : List Handle)
    (hanswered : ∀ handle ∈ left, handle.result? ≠ none)
    (hlength : answers.length = fetched.length) :
    ∃ rest, rest.length = left.length ∧
      ReflTransGen Step ⟨.waiting, fetched ++ left, own, answers, log⟩
        ⟨.waiting, fetched ++ left, own, answers ++ rest, log⟩ := by
  induction left generalizing fetched answers with
  | nil => exact ⟨[], rfl, by rw [List.append_nil answers]⟩
  | cons handle left ih =>
      obtain ⟨result, hresult⟩ :=
        Option.ne_none_iff_exists'.mp (hanswered handle List.mem_cons_self)
      have hhandle : (fetched ++ handle :: left)[answers.length]? = some handle := by
        rw [hlength, List.getElem?_append_right (Nat.le_refl _), Nat.sub_self]
        rfl
      have hfirst : Step ⟨.waiting, fetched ++ handle :: left, own, answers, log⟩
          ⟨.waiting, fetched ++ handle :: left, own, answers ++ [result], log⟩ :=
        .fetch rfl hhandle hresult
      obtain ⟨rest, hrest, hreaches⟩ := ih (fetched ++ [handle])
        (fun other hother => hanswered other (List.mem_cons_of_mem _ hother))
        (show (answers ++ [result]).length = _ by
          rw [List.length_append, List.length_append, hlength, List.length_singleton,
            List.length_singleton])
      rw [List.append_assoc, List.append_assoc, List.singleton_append] at hreaches
      exact ⟨result :: rest, congrArg (· + 1) hrest, .head hfirst hreaches⟩

/-- Whatever a pool may do with the systems that it gets, and however the others end, it
comes true in some dispatch. -/
theorem exists_reachable_of_handles {plan : Plan β} {nodes : List Nat}
    (hanswered : ∀ handle ∈ handles, handle.result? ≠ none)
    (hpooled : (Phase.opening plan nodes).unhanded = handles.map Handle.node)
    (hbound : (Phase.opening plan nodes).unfinished = own.map Prod.fst) :
    ∃ state, Reachable plan nodes state ∧ state.IsDone ∧ state.handles = handles ∧
      state.own = own ∧ state.log = handles.flatMap Handle.signs ++ own.flatMap ownSigns := by
  have hturning : ReflTransGen Step (State.start plan nodes)
      ⟨.turning (own.map Prod.fst), handles, [], [], handles.flatMap Handle.signs⟩ := by
    by_cases hlength : nodes.length = 1
    · obtain ⟨only, rfl⟩ := List.length_eq_one_iff.mp hlength
      obtain rfl : handles = [] := List.map_eq_nil_iff.mp hpooled.symm
      rw [← hbound]
      exact .refl
    · rw [Phase.opening_of_length_ne_one plan hlength] at hpooled hbound
      rw [State.start, Phase.opening_of_length_ne_one plan hlength]
      change List.filter _ _ = _ at hpooled hbound
      rw [hpooled, hbound]
      exact (reaches_handAll handles hanswered _).tail (.turn rfl)
  obtain ⟨answers, hlength, hfetched⟩ : ∃ rest : List TaskResult, rest.length = handles.length ∧
      ReflTransGen Step
        ⟨.waiting, handles, own, [], handles.flatMap Handle.signs ++ own.flatMap ownSigns⟩
        ⟨.waiting, handles, own, rest, handles.flatMap Handle.signs ++ own.flatMap ownSigns⟩ :=
    reaches_fetchAll [] handles hanswered rfl
  exact ⟨_, ((hturning.trans (reaches_runAll own)).tail (.wait rfl)).trans hfetched,
    ⟨rfl, hlength⟩, rfl, rfl, rfl⟩

end Machine

/-- The results of a dispatch are those of the coordinator and of the pool, found by position. -/
theorem Reachable.filterMap_lookup {plan : Plan β} {nodes : List Nat} {state : State}
    (hreach : Reachable plan nodes state) (hdone : state.IsDone)
    (hascending : nodes.Pairwise (· < ·)) :
    (nodes.filterMap fun node =>
        (((state.own.map fun entry => (entry.1, entry.2.result)) ++
          state.handles.filterMap Handle.answer?).lookup node).map (node, ·)) =
      state.results plan nodes := by
  have hkeys := hreach.map_fst_results hdone hascending
  have hnodup : ((state.results plan nodes).map Prod.fst).Nodup := by
    rw [hkeys]
    exact hascending.imp Nat.ne_of_lt
  have hordered :=
    filterMap_lookup_of_perm (hreach.isAligned.perm_results hdone) hnodup
  rwa [hkeys] at hordered

/-! ## What a log says about the runs of bodies -/

def begun (log : List Sign) : List (Nat × Lane) :=
  log.filterMap fun
    | .began node lane => some (node, lane)
    | _ => none

def finished (log : List Sign) : List (Nat × Ending) :=
  log.filterMap fun
    | .ended node ending => some (node, ending)
    | _ => none

section Tells

variable [Behaviour β σ] {plan : Plan β} {context : TickContext}

structure IsCall (plan : Plan β) (context : TickContext) (node : Nat) (lane : Lane)
    (run : BodyRun β σ) : Prop where
  own : ∃ system, plan.systems[node]? = some system ∧ run.id = system.id ∧
    system.body? = some run.body
  reply : ∃ shared, run.reply = Behaviour.run run.body context lane shared

/-- A log says which bodies were run, in which order, on which threads and how they ended. -/
structure Tells (plan : Plan β) (context : TickContext) (log : List Sign)
    (runs : List (BodyRun β σ)) : Prop where
  begun : List.Forall₂ (fun start run => IsCall plan context start.1 start.2 run) (begun log) runs
  finished : List.Forall₂ (fun finish run =>
    plan.systems[finish.1]?.map PlannedSystem.id = some run.id ∧
      run.reply.ending = finish.2) (finished log) runs

theorem Tells.append {log log' : List Sign} {runs runs' : List (BodyRun β σ)}
    (htells : Tells plan context log runs) (htells' : Tells plan context log' runs') :
    Tells plan context (log ++ log') (runs ++ runs') where
  begun := by
    rw [Delegation.begun, List.filterMap_append]
    exact List.rel_append htells.begun htells'.begun
  finished := by
    rw [Delegation.finished, List.filterMap_append]
    exact List.rel_append htells.finished htells'.finished

/-- Systems that are run one after the other, each on its thread and with its ending. -/
def AreCalls (plan : Plan β) (context : TickContext) (lane : Lane)
    (calls : List (Nat × Ending)) (runs : List (BodyRun β σ)) : Prop :=
  List.Forall₂ (fun call run => IsCall plan context call.1 lane run ∧
    run.reply.ending = call.2) calls runs

theorem AreCalls.tells {lane : Lane} {calls : List (Nat × Ending)} {runs : List (BodyRun β σ)}
    (hcalls : AreCalls plan context lane calls runs) {signs : Nat × Ending → List Sign}
    (hbegun : ∀ call, begun (signs call) = [(call.1, lane)])
    (hfinished : ∀ call, finished (signs call) = [call]) :
    Tells plan context (calls.flatMap signs) runs := by
  induction hcalls with
  | nil => exact ⟨.nil, .nil⟩
  | cons hfirst _ ih =>
      rename_i call run calls runs _
      have hone : Tells plan context (signs call) [run] := by
        obtain ⟨system, hsystem, hid, -⟩ := hfirst.1.own
        refine ⟨?_, ?_⟩
        · rw [hbegun]
          exact .cons hfirst.1 .nil
        · rw [hfinished]
          exact .cons ⟨by rw [hsystem, Option.map_some, hid], hfirst.2⟩ .nil
      exact hone.append ih

/-- Running systems that have their bodies calls them one after the other. -/
theorem exists_calls_runEach (lane : Lane) {order : List Nat}
    (hheld : ∀ node ∈ order, plan.hasBody node = true)
    (workspace : Workspace (σ × List (BodyRun β σ))) :
    let ran := plan.noted.runEach context (fun _ => lane) order workspace
    ∃ calls runs, calls.map Prod.fst = order ∧
      ran.1 = calls.map (fun call => (call.1, call.2.result)) ∧
      ran.2.shared.2 = workspace.shared.2 ++ runs ∧ AreCalls plan context lane calls runs := by
  induction order generalizing workspace with
  | nil => exact ⟨[], [], rfl, rfl, (List.append_nil _).symm, .nil⟩
  | cons node order ih =>
      have hhas := hheld node List.mem_cons_self
      rw [Plan.hasBody, Option.any_eq_true] at hhas
      obtain ⟨system, hsystem, hsome⟩ := hhas
      obtain ⟨body, hbody⟩ := Option.isSome_iff_exists.mp hsome
      have hnoted : plan.noted.systems[node]? = some system.noted := by
        rw [Plan.getElem?_systems_noted, hsystem, Option.map_some]
      have hbody' : system.noted.body? = some ⟨system.id, body⟩ := by
        rw [PlannedSystem.noted, hbody, Option.map_some]
      let reply := Behaviour.run body context lane workspace.shared.1
      obtain ⟨calls, runs, hkeys, hresults, hshared, hcalls⟩ := ih
        (fun other hother => hheld other (List.mem_cons_of_mem _ hother))
        ((system.noted.work context).runOn lane workspace).2
      refine ⟨(node, reply.ending) :: calls, ⟨system.id, body, reply⟩ :: runs,
        congrArg _ hkeys, ?_, ?_, .cons ⟨⟨⟨system, hsystem, rfl, hbody⟩, _, rfl⟩, rfl⟩ hcalls⟩
      · rw [Plan.runEach_cons hnoted, List.map_cons, ← hresults, Work.runOn,
          PlannedSystem.work_of_eq_some hbody']
        rfl
      · rw [Plan.runEach_cons hnoted]
        dsimp only
        rw [hshared, Work.runOn, PlannedSystem.work_of_eq_some hbody', ← List.singleton_append,
          ← List.append_assoc]
        rfl

/-- Handles of the systems at some positions, which are all answered, with the results and
the runs that this takes. -/
structure AreAnswered (plan : Plan β) (context : TickContext) (nodes : List Nat)
    (handles : List Handle) (results : List (Nat × TaskResult)) (runs : List (BodyRun β σ)) :
    Prop where
  answered : ∀ handle ∈ handles, handle.result? ≠ none
  nodes : handles.map Handle.node = nodes
  results : handles.filterMap Handle.answer? = results
  tells : Tells plan context (handles.flatMap Handle.signs) runs

/-- The handles of systems that the pool runs. -/
theorem AreCalls.areAnswered {lane : Lane} {calls : List (Nat × Ending)}
    {runs : List (BodyRun β σ)} (hcalls : AreCalls plan context lane calls runs) :
    AreAnswered plan context (calls.map Prod.fst)
      (calls.map fun call => ⟨call.1, .answered lane call.2⟩)
      (calls.map fun call => (call.1, call.2.result)) runs where
  answered := List.forall_mem_map.mpr fun _ _ => Option.some_ne_none _
  nodes := by
    rw [List.map_map]
    rfl
  results := by
    rw [List.filterMap_map]
    exact congrFun List.filterMap_eq_map calls
  tells := by
    rw [List.flatMap_map]
    exact hcalls.tells (fun _ => rfl) (fun _ => rfl)

/-- The handles of systems that the pool gives up. -/
theorem areAnswered_refused (plan : Plan β) (context : TickContext) (nodes : List Nat) :
    AreAnswered plan context nodes (nodes.map fun node => ⟨node, .refused⟩)
      (nodes.map fun node => (node, .error .disconnected)) ([] : List (BodyRun β σ)) where
  answered := List.forall_mem_map.mpr fun _ _ => Option.some_ne_none _
  nodes := by
    rw [List.map_map]
    exact List.map_id _
  results := by
    rw [List.filterMap_map]
    exact congrFun List.filterMap_eq_map nodes
  tells := by
    rw [List.flatMap_map]
    induction nodes with
    | nil => exact ⟨.nil, .nil⟩
    | cons node nodes ih =>
        have hone : Tells plan context [.handed node] ([] : List (BodyRun β σ)) := ⟨.nil, .nil⟩
        exact hone.append ih

/-- What a pool makes of the systems that are handed in together. -/
theorem exists_areAnswered_submitAll (pool : Pool)
    {entries : List (Nat × PlannedSystem (Noted β))}
    (hentries : ∀ entry ∈ entries, plan.noted.systems[entry.1]? = some entry.2)
    (hheld : ∀ entry ∈ entries, plan.hasBody entry.1 = true)
    (workspace : Workspace (σ × List (BodyRun β σ))) :
    let answered := pool.submitAll (entries.map fun entry => entry.2.work context) workspace
    ∃ handles runs, answered.2.shared.2 = workspace.shared.2 ++ runs ∧
      AreAnswered plan context (entries.map Prod.fst) handles
        ((entries.map Prod.fst).zip answered.1) runs := by
  intro answered
  by_cases hopen : pool = .closed
  · subst hopen
    have hanswered : answered = _ := Pool.submitAll_closed _ workspace
    have hresults : (entries.map Prod.fst).zip answered.1 =
        (entries.map Prod.fst).map fun node => (node, .error .disconnected) := by
      rw [hanswered]
      dsimp only
      rw [List.map_map, List.zip_map', List.map_map]
      rfl
    refine ⟨_, [], ?_, hresults ▸ areAnswered_refused plan context _⟩
    rw [hanswered, List.append_nil]
  · obtain ⟨lane, hlane⟩ := Pool.exists_lane?_eq_some hopen
    have hanswered : answered =
        let run := plan.noted.runEach context (fun _ => lane) (entries.map Prod.fst) workspace
        (run.1.map Prod.snd, run.2) :=
      Plan.submitAll_eq_runEach (fun entry hentry => ⟨hentries entry hentry, hlane⟩) workspace
    obtain ⟨calls, runs, hkeys, hresults, hshared, hcalls⟩ := exists_calls_runEach lane
      (List.forall_mem_map.mpr hheld) workspace
    refine ⟨calls.map fun call => ⟨call.1, .answered lane call.2⟩, runs, ?_, ?_⟩
    · rw [hanswered]
      exact hshared
    · rw [hanswered]
      dsimp only
      rw [hresults, List.map_map, ← hkeys, List.zip_map']
      exact hcalls.areAnswered

theorem isBound_noted (plan : Plan β) (node : Nat) :
    plan.noted.isBound node = plan.isBound node := by
  rw [Plan.isBound, Plan.isBound, Plan.getElem?_systems_noted, Option.any_map]
  rfl

/-- What the pool and the coordinator make of their systems comes together in a dispatch. -/
theorem exists_reachable_of_areAnswered {nodes : List Nat} (hascending : nodes.Pairwise (· < ·))
    {handles : List Handle} {results : List (Nat × TaskResult)} {own : List (Nat × Ending)}
    {pooledRuns ownRuns : List (BodyRun β σ)}
    (hanswered : AreAnswered plan context (Phase.opening plan nodes).unhanded handles results
      pooledRuns)
    (hown : own.map Prod.fst = (Phase.opening plan nodes).unfinished)
    (hcalls : AreCalls plan context .coordinator own ownRuns) :
    ∃ state, Reachable plan nodes state ∧ state.IsDone ∧
      (state.results plan nodes = nodes.filterMap fun node =>
        (((own.map fun entry => (entry.1, entry.2.result)) ++ results).lookup node).map
          (node, ·)) ∧
      Tells plan context state.log (pooledRuns ++ ownRuns) := by
  obtain ⟨state, hreach, hdone, hhandles, hstateOwn, hlog⟩ :=
    exists_reachable_of_handles hanswered.answered hanswered.nodes.symm hown.symm
  refine ⟨state, hreach, hdone, ?_, ?_⟩
  · rw [← hreach.filterMap_lookup hdone hascending, hhandles, hstateOwn, hanswered.results]
  · rw [hlog]
    exact hanswered.tells.append (hcalls.tells (fun _ => rfl) (fun _ => rfl))

/-- A dispatch on some pool has the given outcome: it returns these results, and it runs the
bodies that were noted since `before`. -/
def IsOnAnyPool (plan : Plan β) (context : TickContext) (nodes : List Nat)
    (before : List (BodyRun β σ))
    (dispatched : List (Nat × TaskResult) × Workspace (σ × List (BodyRun β σ))) : Prop :=
  ∃ state runs, Reachable plan nodes state ∧ state.IsDone ∧
    state.results plan nodes = dispatched.1 ∧ dispatched.2.shared.2 = before ++ runs ∧
    Tells plan context state.log runs

/-- A system alone is run by the coordinator. -/
theorem isOnAnyPool_dispatch_singleton (pool : Pool) {node : Nat}
    (hbound : node < plan.noted.systems.length) (hheld : plan.hasBody node = true)
    (workspace : Workspace (σ × List (BodyRun β σ))) :
    IsOnAnyPool plan context [node] workspace.shared.2
      (plan.noted.dispatch pool context [node] workspace) := by
  obtain ⟨calls, runs, hkeys, hresults, hshared, hcalls⟩ :=
    exists_calls_runEach .coordinator (List.forall_mem_singleton.mpr hheld) workspace
  obtain ⟨state, hreach, hdone, hstate, htells⟩ := exists_reachable_of_areAnswered
    (List.pairwise_singleton _ node) (areAnswered_refused plan context []) hkeys hcalls
  rw [Plan.dispatch_singleton pool context hbound]
  refine ⟨state, runs, hreach, hdone, ?_, hshared, htells⟩
  obtain ⟨call, rfl, rfl⟩ := List.map_eq_singleton_iff.mp hkeys
  rw [hstate, hresults]
  simp

/-- Several systems are shared between the pool and the coordinator. -/
theorem isOnAnyPool_dispatch_of_length_ne_one (pool : Pool) {nodes : List Nat}
    (hascending : nodes.Pairwise (· < ·)) (hlength : nodes.length ≠ 1)
    (hbound : ∀ node ∈ nodes, node < plan.noted.systems.length)
    (hheld : ∀ node ∈ nodes, plan.hasBody node = true)
    (workspace : Workspace (σ × List (BodyRun β σ))) :
    IsOnAnyPool plan context nodes workspace.shared.2
      (plan.noted.dispatch pool context nodes workspace) := by
  let entries := (plan.noted.systemsAt nodes).filter fun entry => !entry.2.onMainThread
  let pooled := pool.submitAll (entries.map fun entry => entry.2.work context) workspace
  have hentries : ∀ entry ∈ entries, plan.noted.systems[entry.1]? = some entry.2 :=
    fun entry hentry => Plan.getElem?_of_mem_systemsAt (List.mem_of_mem_filter hentry)
  have hkeys : entries.map Prod.fst = nodes.filter fun node => !plan.isBound node := by
    rw [Plan.map_fst_filter_systemsAt hbound not]
    exact List.filter_congr fun node _ => congrArg not (isBound_noted plan node)
  have hpooled : ∀ node ∈ entries.map Prod.fst, plan.hasBody node = true := by
    rw [hkeys]
    exact fun node hnode => hheld node (List.mem_of_mem_filter hnode)
  have hkept : ∀ node ∈ nodes.filter fun node => plan.noted.isBound node,
      plan.hasBody node = true :=
    fun node hnode => hheld node (List.mem_of_mem_filter hnode)
  obtain ⟨handles, pooledRuns, hshared, hanswered⟩ := exists_areAnswered_submitAll pool
    hentries (List.forall_mem_map.mp hpooled) workspace
  obtain ⟨calls, ownRuns, hcallKeys, hresults, hshared', hcalls⟩ :=
    exists_calls_runEach .coordinator hkept pooled.2
  have hopening := Phase.opening_of_length_ne_one plan hlength
  have hunhanded : AreAnswered plan context (Phase.opening plan nodes).unhanded handles
      ((entries.map Prod.fst).zip pooled.1) pooledRuns := by
    rw [hopening, Phase.unhanded, ← hkeys]
    exact hanswered
  have hunfinished : calls.map Prod.fst = (Phase.opening plan nodes).unfinished := by
    rw [hopening, hcallKeys]
    exact List.filter_congr fun node _ => isBound_noted plan node
  obtain ⟨state, hreach, hdone, hstate, htells⟩ := exists_reachable_of_areAnswered hascending
    hunhanded hunfinished hcalls
  rw [Plan.dispatch_eq_submitAll pool context hbound hlength (fun _ => .coordinator)
    (fun _ _ => rfl) workspace]
  refine ⟨state, pooledRuns ++ ownRuns, hreach, hdone, ?_, ?_, htells⟩
  · rw [hstate, ← hresults]
  · rw [← List.append_assoc, ← hshared]
    exact hshared'

/-- What a dispatch on a pool of the library returns and runs is what a dispatch on any pool
may return and run. -/
theorem isOnAnyPool_dispatch (pool : Pool) (context : TickContext) {nodes : List Nat}
    (hascending : nodes.Pairwise (· < ·)) (hheld : ∀ node ∈ nodes, plan.hasBody node = true)
    (workspace : Workspace (σ × List (BodyRun β σ))) :
    IsOnAnyPool plan context nodes workspace.shared.2
      (plan.noted.dispatch pool context nodes workspace) := by
  have hbound : ∀ node ∈ nodes, node < plan.noted.systems.length := by
    intro node hnode
    obtain ⟨system, hsystem, -⟩ := (Option.any_eq_true _ _).mp (hheld node hnode)
    rw [Plan.noted, List.length_map]
    exact (List.getElem?_eq_some_iff.mp hsystem).1
  by_cases hlength : nodes.length = 1
  · obtain ⟨node, rfl⟩ := List.length_eq_one_iff.mp hlength
    exact isOnAnyPool_dispatch_singleton pool (hbound node List.mem_cons_self)
      (hheld node List.mem_cons_self) workspace
  · exact isOnAnyPool_dispatch_of_length_ne_one pool hascending hlength hbound hheld workspace

end Tells

end Delegation

end TickWaves
