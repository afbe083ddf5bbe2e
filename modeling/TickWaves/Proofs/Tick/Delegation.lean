import TickWaves.Proofs.Tick.Progress

/-!
# Handing a wave to any pool

A pool runs a system that it accepted once, on a thread of its choice, or else it gives the
system up without running it.  Nothing more is known about it: `Step` lets it go on with any of
the systems that it holds, in any order and at any time.  The coordinating thread hands its
systems in, runs its own, and then fetches the answers in the order in which it handed the
systems in.

A dispatch can go on until it is done (`Reachable.exists_step`) and does not go on for ever
(`exists_not_step`).  On the way every system is with the coordinator or with the pool, its
answer keeps its place, and what was seen of it is what was done with it (`State.IsAligned`).
-/

namespace TickWaves

open Relation

universe u

variable {β : Type u}

namespace Interleaving.Phase

/-- The systems that are still to be handed in. -/
def unhanded : Phase → List Nat
  | submitting pooled _ => pooled
  | _ => []

/-- The systems that the coordinator runs itself and is not done with. -/
def unfinished : Phase → List Nat
  | submitting _ bound => bound
  | turning bound => bound
  | inside node bound => node :: bound
  | _ => []

/-- The coordinator and the pool share the wave. -/
theorem perm_opening (plan : Plan β) (nodes : List Nat) :
    ((opening plan nodes).unfinished ++ (opening plan nodes).unhanded).Perm nodes := by
  by_cases hlength : nodes.length = 1
  · obtain ⟨only, rfl⟩ := List.length_eq_one_iff.mp hlength
    exact List.Perm.refl _
  · rw [opening_of_length_ne_one plan hlength]
    exact List.filter_append_perm _ _

end Interleaving.Phase

namespace Plan

def IsPooled (plan : Plan β) (nodes : List Nat) (node : Nat) : Prop :=
  2 ≤ nodes.length ∧ plan.isBound node = false

theorem mem_unhanded_opening {plan : Plan β} {nodes : List Nat} {node : Nat} :
    node ∈ (Interleaving.Phase.opening plan nodes).unhanded ↔
      node ∈ nodes ∧ plan.IsPooled nodes node := by
  by_cases hlength : nodes.length = 1
  · obtain ⟨only, rfl⟩ := List.length_eq_one_iff.mp hlength
    simp [Interleaving.Phase.opening, Interleaving.Phase.unhanded, IsPooled]
  · have hmany : node ∈ nodes → 2 ≤ nodes.length := by
      intro hnode
      have hpos := List.length_pos_of_mem hnode
      omega
    rw [Interleaving.Phase.opening_of_length_ne_one plan hlength, IsPooled]
    simp only [Interleaving.Phase.unhanded, List.mem_filter, Bool.not_eq_true']
    exact ⟨fun h => ⟨h.1, hmany h.1, h.2⟩, fun h => ⟨h.1, h.2.2⟩⟩

end Plan

namespace Delegation

open Interleaving (Phase)

/-- What is seen of the systems of a tick. -/
inductive Sign
  | handed (node : Nat)
  | began (node : Nat) (lane : Lane)
  | ended (node : Nat) (ending : Ending)
  deriving DecidableEq

def Sign.node : Sign → Nat
  | handed node => node
  | began node _ => node
  | ended node _ => node

/-- How far a pool is with a system that it accepted. -/
inductive Stage
  /-- Nothing was done yet. -/
  | accepted
  | running (lane : Lane)
  | answered (lane : Lane) (ending : Ending)
  /-- The pool gave the system up and will never run it. -/
  | refused

/-- A system that was handed to a pool. -/
structure Handle where
  node : Nat
  stage : Stage

namespace Handle

/-- What waiting for the system gives, as soon as it gives something. -/
def result? (handle : Handle) : Option TaskResult :=
  match handle.stage with
  | .answered _ ending => some ending.result
  | .refused => some (.error .disconnected)
  | _ => none

def answer? (handle : Handle) : Option (Nat × TaskResult) :=
  handle.result?.map (handle.node, ·)

def signs (handle : Handle) : List Sign :=
  .handed handle.node ::
    match handle.stage with
    | .running lane => [.began handle.node lane]
    | .answered lane ending => [.began handle.node lane, .ended handle.node ending]
    | _ => []

/-- What a pool may do with a system that it accepted: it runs the system once or never. -/
inductive Step : Handle → Option Sign → Handle → Prop
  | begin (node : Nat) (lane : Lane) :
      Step ⟨node, .accepted⟩ (some (.began node lane)) ⟨node, .running lane⟩
  | finish (node : Nat) (lane : Lane) (ending : Ending) :
      Step ⟨node, .running lane⟩ (some (.ended node ending)) ⟨node, .answered lane ending⟩
  | refuse (node : Nat) : Step ⟨node, .accepted⟩ none ⟨node, .refused⟩

/-- The number of steps until there is an answer. -/
def effort (handle : Handle) : Nat :=
  match handle.stage with
  | .accepted => 2
  | .running _ => 1
  | _ => 0

variable {handle handle' : Handle} {sign? : Option Sign}

theorem Step.node_eq (hstep : Step handle sign? handle') : handle'.node = handle.node := by
  cases hstep <;> rfl

theorem Step.signs_eq (hstep : Step handle sign? handle') :
    handle'.signs = handle.signs ++ sign?.toList := by
  cases hstep <;> rfl

/-- What is answered stays as it is. -/
theorem Step.result?_eq_none (hstep : Step handle sign? handle') : handle.result? = none := by
  cases hstep <;> rfl

theorem Step.effort_lt (hstep : Step handle sign? handle') : handle'.effort < handle.effort := by
  cases hstep with
  | begin node lane => exact Nat.lt_succ_self 1
  | finish node lane ending => exact Nat.zero_lt_one
  | refuse node => exact Nat.zero_lt_two

/-- A pool can go on with every system that has no answer. -/
theorem exists_step_of_result?_eq_none (hnone : handle.result? = none) :
    ∃ sign? handle', Step handle sign? handle' := by
  obtain ⟨node, stage⟩ := handle
  cases stage with
  | accepted => exact ⟨_, _, .refuse node⟩
  | running lane => exact ⟨_, _, .finish node lane .done⟩
  | answered lane ending => cases hnone
  | refused => cases hnone

end Handle

/-- A dispatch at one moment. -/
structure State where
  /-- Where the coordinating thread is. -/
  phase : Phase
  /-- The systems that were handed in, in order. -/
  handles : List Handle
  /-- The systems that the coordinator ran itself, and how they ended. -/
  own : List (Nat × Ending)
  /-- The answers that were fetched, in order. -/
  answers : List TaskResult
  /-- What was seen of the bodies. -/
  log : List Sign

namespace State

def start (plan : Plan β) (nodes : List Nat) : State where
  phase := .opening plan nodes
  handles := []
  own := []
  answers := []
  log := []

def IsDone (state : State) : Prop :=
  state.phase = .waiting ∧ state.answers.length = state.handles.length

/-- What a dispatch returns: every result beside its system, in ascending order. -/
def results (state : State) (plan : Plan β) (nodes : List Nat) : List (Nat × TaskResult) :=
  ((state.own.map fun entry => (entry.1, entry.2.result)) ++
    (Phase.opening plan nodes).unhanded.zip state.answers).mergeSort
      fun left right => left.1 ≤ right.1

end State

/-- The coordinator or the pool takes a step. -/
inductive Step : State → State → Prop
  | hand {state : State} {node : Nat} {pooled bound : List Nat} :
      state.phase = .submitting (node :: pooled) bound →
        Step state
          { state with
            phase := .submitting pooled bound
            handles := state.handles ++ [⟨node, .accepted⟩]
            log := state.log ++ [.handed node] }
  /-- All systems are handed in. -/
  | turn {state : State} {bound : List Nat} :
      state.phase = .submitting [] bound → Step state { state with phase := .turning bound }
  | enter {state : State} {node : Nat} {bound : List Nat} :
      state.phase = .turning (node :: bound) →
        Step state
          { state with
            phase := .inside node bound
            log := state.log ++ [.began node .coordinator] }
  | leave {state : State} {node : Nat} {bound : List Nat} {ending : Ending} :
      state.phase = .inside node bound →
        Step state
          { state with
            phase := .turning bound
            own := state.own ++ [(node, ending)]
            log := state.log ++ [.ended node ending] }
  /-- The coordinator has run all that it runs itself. -/
  | wait {state : State} :
      state.phase = .turning [] → Step state { state with phase := .waiting }
  /-- The answer that is next in turn is fetched. -/
  | fetch {state : State} {handle : Handle} {result : TaskResult} :
      state.phase = .waiting → state.handles[state.answers.length]? = some handle →
        handle.result? = some result →
          Step state { state with answers := state.answers ++ [result] }
  /-- The pool goes on with one of its systems. -/
  | work {state : State} {left right : List Handle} {handle handle' : Handle}
      {sign? : Option Sign} :
      state.handles = left ++ handle :: right → handle.Step sign? handle' →
        Step state
          { state with
            handles := left ++ handle' :: right
            log := state.log ++ sign?.toList }

def Reachable (plan : Plan β) (nodes : List Nat) : State → Prop :=
  ReflTransGen Step (State.start plan nodes)

/-! ## A dispatch comes to its end -/

def State.rank (state : State) : Nat :=
  state.phase.effort + (state.handles.map Handle.effort).sum +
    (state.handles.length - state.answers.length)

theorem Step.rank_lt {state state' : State} (hstep : Step state state') :
    state'.rank < state.rank := by
  cases hstep with
  | @hand node pooled bound hphase =>
      simp only [State.rank, hphase, Phase.effort, List.map_append, List.map_singleton,
        List.sum_append, List.sum_singleton, List.length_append, List.length_cons,
        List.length_nil, Handle.effort]
      omega
  | turn hphase =>
      simp only [State.rank, hphase, Phase.effort, List.length_nil]
      omega
  | enter hphase =>
      simp only [State.rank, hphase, Phase.effort, List.length_cons]
      omega
  | leave hphase =>
      simp only [State.rank, hphase, Phase.effort]
      omega
  | wait hphase =>
      simp only [State.rank, hphase, Phase.effort]
      omega
  | fetch _ hhandle _ =>
      have hlt := (List.getElem?_eq_some_iff.mp hhandle).1
      simp only [State.rank, List.length_append, List.length_singleton]
      omega
  | work hhandles hwork =>
      have hlt := hwork.effort_lt
      simp only [State.rank, hhandles, List.map_append, List.map_cons, List.sum_append,
        List.sum_cons, List.length_append, List.length_cons]
      omega

/-- A dispatch does not go on for ever. -/
theorem exists_not_step (run : Nat → State) :
    ∃ moment, ¬ Step (run moment) (run (moment + 1)) := by
  by_contra! hsteps
  obtain ⟨moment, hstuck⟩ :=
    WellFounded.not_rel_apply_succ (r := (· < ·)) fun moment => (run moment).rank
  exact hstuck (hsteps moment).rank_lt

/-! ## Where the systems of the wave are -/

def ownSigns (entry : Nat × Ending) : List Sign :=
  [.began entry.1 .coordinator, .ended entry.1 entry.2]

def phaseSigns : Phase → List Sign
  | .inside node _ => [.began node .coordinator]
  | _ => []

def State.trace (state : State) : Multiset Sign :=
  state.handles.flatMap Handle.signs + state.own.flatMap ownSigns + phaseSigns state.phase

/-- Every system of the wave has its place, and what was done with it was seen. -/
structure State.IsAligned (plan : Plan β) (nodes : List Nat) (state : State) : Prop where
  isOpen : state.phase.isOpen = true
  pooled : (Phase.opening plan nodes).unhanded =
    state.handles.map Handle.node ++ state.phase.unhanded
  bound : (Phase.opening plan nodes).unfinished =
    state.own.map Prod.fst ++ state.phase.unfinished
  answers : state.answers.map some =
    (state.handles.take state.answers.length).map Handle.result?
  seen : state.log = state.trace

namespace State.IsAligned

variable {plan : Plan β} {nodes : List Nat} {state : State}

theorem start (plan : Plan β) (nodes : List Nat) :
    (State.start plan nodes).IsAligned plan nodes where
  isOpen := Phase.isOpen_opening plan nodes
  pooled := rfl
  bound := rfl
  answers := rfl
  seen := by
    have hsigns : phaseSigns (Phase.opening plan nodes) = [] := by
      by_cases hlength : nodes.length = 1
      · obtain ⟨only, rfl⟩ := List.length_eq_one_iff.mp hlength
        rfl
      · rw [Phase.opening_of_length_ne_one plan hlength, phaseSigns.eq_def]
    rw [trace, State.start, hsigns]
    rfl

theorem length_answers_le (haligned : state.IsAligned plan nodes) :
    state.answers.length ≤ state.handles.length := by
  have hlength := congrArg List.length haligned.answers
  rw [List.length_map, List.length_map, List.length_take] at hlength
  omega

/-- The coordinator goes on to something else. -/
theorem rephased (haligned : state.IsAligned plan nodes) {phase : Phase}
    (hopen : phase.isOpen = true) (hunhanded : phase.unhanded = state.phase.unhanded)
    (hunfinished : phase.unfinished = state.phase.unfinished)
    (hsigns : phaseSigns phase = phaseSigns state.phase) :
    State.IsAligned plan nodes { state with phase := phase } where
  isOpen := hopen
  pooled := by
    rw [hunhanded]
    exact haligned.pooled
  bound := by
    rw [hunfinished]
    exact haligned.bound
  answers := haligned.answers
  seen := by
    rw [trace, hsigns]
    exact haligned.seen

theorem hand (haligned : state.IsAligned plan nodes) {node : Nat} {pooled bound : List Nat}
    (hphase : state.phase = .submitting (node :: pooled) bound) :
    State.IsAligned plan nodes
      { state with
        phase := .submitting pooled bound
        handles := state.handles ++ [⟨node, .accepted⟩]
        log := state.log ++ [.handed node] } where
  isOpen := rfl
  pooled := by
    rw [haligned.pooled, hphase, List.map_append, List.append_assoc]
    rfl
  bound := by
    rw [haligned.bound, hphase]
    rfl
  answers := by
    rw [List.take_append_of_le_length haligned.length_answers_le]
    exact haligned.answers
  seen := by
    have hsigns : ([Handle.mk node .accepted].flatMap Handle.signs) = [.handed node] := rfl
    have hbefore := haligned.seen
    rw [trace, hphase] at hbefore
    rw [trace, List.flatMap_append, hsigns, ← Multiset.coe_add, ← Multiset.coe_add, hbefore]
    exact (add_right_comm _ _ _).trans (congrArg (· + _) (add_right_comm _ _ _))

theorem enter (haligned : state.IsAligned plan nodes) {node : Nat} {bound : List Nat}
    (hphase : state.phase = .turning (node :: bound)) :
    State.IsAligned plan nodes
      { state with
        phase := .inside node bound
        log := state.log ++ [.began node .coordinator] } where
  isOpen := rfl
  pooled := by
    rw [haligned.pooled, hphase]
    rfl
  bound := by
    rw [haligned.bound, hphase]
    rfl
  answers := haligned.answers
  seen := by
    have hbefore := haligned.seen
    rw [trace, hphase] at hbefore
    rw [← Multiset.coe_add, hbefore]
    exact congrArg (· + _) (add_zero _)

theorem leave (haligned : state.IsAligned plan nodes) {node : Nat} {bound : List Nat}
    (hphase : state.phase = .inside node bound) (ending : Ending) :
    State.IsAligned plan nodes
      { state with
        phase := .turning bound
        own := state.own ++ [(node, ending)]
        log := state.log ++ [.ended node ending] } where
  isOpen := rfl
  pooled := by
    rw [haligned.pooled, hphase]
    rfl
  bound := by
    rw [haligned.bound, hphase, List.map_append, List.append_assoc]
    rfl
  answers := haligned.answers
  seen := by
    have hsigns : (([(node, ending)].flatMap ownSigns : List Sign) : Multiset Sign) =
        ([.began node .coordinator] : List Sign) + ([.ended node ending] : List Sign) := rfl
    have hbefore := haligned.seen
    rw [trace, hphase] at hbefore
    rw [trace, List.flatMap_append, ← Multiset.coe_add, ← Multiset.coe_add, hbefore, hsigns]
    simp only [phaseSigns, Multiset.coe_nil, add_zero, add_assoc]

theorem fetch (haligned : state.IsAligned plan nodes) {handle : Handle} {result : TaskResult}
    (hhandle : state.handles[state.answers.length]? = some handle)
    (hresult : handle.result? = some result) :
    State.IsAligned plan nodes { state with answers := state.answers ++ [result] } where
  isOpen := haligned.isOpen
  pooled := haligned.pooled
  bound := haligned.bound
  answers := by
    rw [List.map_append, haligned.answers, List.length_append, List.length_singleton,
      List.take_add_one, hhandle, List.map_append]
    simp [hresult]
  seen := haligned.seen

theorem work (haligned : state.IsAligned plan nodes) {left right : List Handle}
    {handle handle' : Handle} {sign? : Option Sign}
    (hhandles : state.handles = left ++ handle :: right) (hwork : handle.Step sign? handle') :
    State.IsAligned plan nodes
      { state with
        handles := left ++ handle' :: right
        log := state.log ++ sign?.toList } where
  isOpen := haligned.isOpen
  pooled := by
    rw [haligned.pooled, hhandles, List.map_append, List.map_append, List.map_cons,
      List.map_cons, hwork.node_eq]
  bound := haligned.bound
  answers := by
    -- The handle has no answer, so only answers before it were fetched.
    have hle : state.answers.length ≤ left.length := by
      by_contra hlt
      have hat := congrArg (fun results => results[left.length]?) haligned.answers
      simp [hhandles, hwork.result?_eq_none, Nat.not_le.mp hlt] at hat
    have hbefore := haligned.answers
    rw [hhandles, List.take_append_of_le_length hle] at hbefore
    rw [List.take_append_of_le_length hle]
    exact hbefore
  seen := by
    have hbefore := haligned.seen
    rw [trace, hhandles] at hbefore
    rw [← Multiset.coe_add, hbefore, trace]
    simp only [List.flatMap_append, List.flatMap_cons, hwork.signs_eq, ← Multiset.coe_add]
    abel

end State.IsAligned

variable {plan : Plan β} {nodes : List Nat} {state state' : State}

theorem Step.isAligned (hstep : Step state state') (haligned : state.IsAligned plan nodes) :
    state'.IsAligned plan nodes := by
  cases hstep with
  | hand hphase => exact haligned.hand hphase
  | turn hphase =>
      apply haligned.rephased rfl
      all_goals
        rw [hphase]
        rfl
  | enter hphase => exact haligned.enter hphase
  | leave hphase => exact haligned.leave hphase _
  | wait hphase =>
      apply haligned.rephased rfl
      all_goals
        rw [hphase]
        rfl
  | fetch _ hhandle hresult => exact haligned.fetch hhandle hresult
  | work hhandles hwork => exact haligned.work hhandles hwork

theorem Reachable.isAligned (hreach : Reachable plan nodes state) :
    state.IsAligned plan nodes := by
  induction hreach with
  | refl => exact .start plan nodes
  | tail _ hstep ih => exact hstep.isAligned ih

/-- As long as a dispatch is not done, the coordinator or the pool can take a step. -/
theorem Reachable.exists_step (hreach : Reachable plan nodes state) (hdone : ¬ state.IsDone) :
    ∃ state', Step state state' := by
  have haligned := hreach.isAligned
  cases hphase : state.phase with
  | gate =>
      have hopen := haligned.isOpen
      rw [hphase] at hopen
      cases hopen
  | submitting pooled bound =>
      cases pooled with
      | nil => exact ⟨_, .turn hphase⟩
      | cons node pooled => exact ⟨_, .hand hphase⟩
  | turning bound =>
      cases bound with
      | nil => exact ⟨_, .wait hphase⟩
      | cons node bound => exact ⟨_, .enter hphase⟩
  | inside node bound => exact ⟨_, @Step.leave state node bound .done hphase⟩
  | waiting =>
      have hlt : state.answers.length < state.handles.length := by
        have hle := haligned.length_answers_le
        have hne : state.answers.length ≠ state.handles.length :=
          fun heq => hdone ⟨hphase, heq⟩
        omega
      have hhandle := List.getElem?_eq_getElem hlt
      cases hresult : state.handles[state.answers.length].result? with
      | some result => exact ⟨_, .fetch hphase hhandle hresult⟩
      | none =>
          -- The coordinator waits, and it is the pool's turn.
          obtain ⟨sign?, handle', hwork⟩ := Handle.exists_step_of_result?_eq_none hresult
          obtain ⟨left, right, hhandles⟩ := List.append_of_mem (List.getElem_mem hlt)
          exact ⟨_, .work hhandles hwork⟩
  | finished isCancelled =>
      have hopen := haligned.isOpen
      rw [hphase] at hopen
      cases hopen

/-- Every moment of a dispatch is followed by one at which it is done. -/
theorem Reachable.exists_isDone (hreach : Reachable plan nodes state) :
    ∃ state', Reachable plan nodes state' ∧ state'.IsDone := by
  induction hrank : state.rank using Nat.strong_induction_on generalizing state with
  | _ rank ih =>
      by_cases hdone : state.IsDone
      · exact ⟨state, hreach, hdone⟩
      · obtain ⟨next, hstep⟩ := hreach.exists_step hdone
        exact ih next.rank (hrank ▸ hstep.rank_lt) (hreach.tail hstep) rfl

end Delegation

end TickWaves
