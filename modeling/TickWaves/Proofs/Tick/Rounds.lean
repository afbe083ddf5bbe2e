import TickWaves.Proofs.Order.Lookup
import TickWaves.Tick.Execution

/-!
# Running the members of a wave in any order

`Plan.dispatch` hands the members of a wave to a pool and runs those that are bound to the
coordinating thread itself.  Seen from outside, it runs all of them in some order, each on
some thread (`dispatch_eq_runEach`).  `runRounds` is a tick in which that order is a free
choice; a round with one position runs one system alone.
-/

namespace TickWaves

universe u v

theorem Pool.exists_lane?_eq_some {pool : Pool} (hopen : pool ≠ .closed) :
    ∃ lane, pool.lane? = some lane := by
  cases pool with
  | inline => exact ⟨_, rfl⟩
  | threads requested label => exact ⟨_, rfl⟩
  | closed => exact absurd rfl hopen

theorem Pool.length_submitAll {τ : Type*} (pool : Pool) (works : List (Work τ)) (state : τ) :
    (pool.submitAll works state).1.length = works.length := by
  induction works generalizing state with
  | nil => rfl
  | cons work works ih => exact congrArg (· + 1) (ih _)

theorem Pool.submitAll_closed {τ : Type*} (works : List (Work τ)) (state : τ) :
    Pool.closed.submitAll works state = (works.map fun _ => .error .disconnected, state) := by
  induction works with
  | nil => rfl
  | cons work works ih =>
      rw [submitAll, submit]
      dsimp only [lane?]
      rw [ih]
      rfl

namespace Plan

variable {β : Type u} {σ : Type v}

/-- Runs the systems at some positions one after the other, each on the thread that is
chosen for it. -/
def runEach [Behaviour β σ] (plan : Plan β) (context : TickContext) (lanes : Nat → Lane) :
    List Nat → Workspace σ → List (Nat × TaskResult) × Workspace σ
  | [], workspace => ([], workspace)
  | node :: order, workspace =>
      match plan.systems[node]? with
      | none => plan.runEach context lanes order workspace
      | some system =>
          let (result, workspace) := (system.work context).runOn (lanes node) workspace
          let (results, workspace) := plan.runEach context lanes order workspace
          ((node, result) :: results, workspace)

/-- The entry of a position that is blocked. -/
def skip? (plan : Plan β) (settled : List Settled) (node : Nat) : Option Settled :=
  (plan.blocker? settled node).map fun id => ⟨node, .skipped id, none⟩

/-- Runs some positions in the given order, without those that are blocked when the round
begins. -/
def runRound [Behaviour β σ] (plan : Plan β) (context : TickContext) (lanes : Nat → Lane)
    (order : List Nat) (settled : List Settled) (workspace : Workspace σ) :
    List Settled × Workspace σ :=
  let blocked := order.filterMap (plan.skip? settled)
  let runnable := order.filter fun node => (plan.blocker? settled node).isNone
  let (results, workspace) := plan.runEach context lanes runnable workspace
  let ran := results.map fun (node, result) => plan.settle workspace.profiler node result
  (settled ++ blocked ++ ran, workspace)

def runRounds [Behaviour β σ] (plan : Plan β) (context : TickContext) (lanes : Nat → Lane) :
    List (List Nat) → List Settled → Workspace σ → List Settled × Workspace σ
  | [], settled, workspace => (settled, workspace)
  | order :: orders, settled, workspace =>
      let (settled, workspace) := plan.runRound context lanes order settled workspace
      plan.runRounds context lanes orders settled workspace

section RunEach

variable [Behaviour β σ] {plan : Plan β} {context : TickContext} {lanes : Nat → Lane}

theorem runEach_cons {node : Nat} {system : PlannedSystem β}
    (hsystem : plan.systems[node]? = some system) (order : List Nat)
    (workspace : Workspace σ) :
    plan.runEach context lanes (node :: order) workspace =
      let one := (system.work context).runOn (lanes node) workspace
      let rest := plan.runEach context lanes order one.2
      ((node, one.1) :: rest.1, rest.2) := by
  rw [runEach, hsystem]

theorem map_fst_runEach (context : TickContext) (lanes : Nat → Lane) {order : List Nat}
    (hbound : ∀ node ∈ order, node < plan.systems.length) (workspace : Workspace σ) :
    (plan.runEach context lanes order workspace).1.map Prod.fst = order := by
  induction order generalizing workspace with
  | nil => rfl
  | cons node order ih =>
      have hsystem := List.getElem?_eq_getElem (hbound node List.mem_cons_self)
      rw [runEach_cons hsystem]
      exact congrArg _ (ih (fun other hother => hbound other (List.mem_cons_of_mem _ hother)) _)

theorem zip_runEach {order : List Nat} (hbound : ∀ node ∈ order, node < plan.systems.length)
    (workspace : Workspace σ) :
    order.zip ((plan.runEach context lanes order workspace).1.map Prod.snd) =
      (plan.runEach context lanes order workspace).1 :=
  (List.zip_of_prod (map_fst_runEach context lanes hbound workspace) rfl).symm

theorem runEach_append {first second : List Nat}
    (hbound : ∀ node ∈ first, node < plan.systems.length) (workspace : Workspace σ) :
    plan.runEach context lanes (first ++ second) workspace =
      let left := plan.runEach context lanes first workspace
      let right := plan.runEach context lanes second left.2
      (left.1 ++ right.1, right.2) := by
  induction first generalizing workspace with
  | nil => rfl
  | cons node first ih =>
      have hsystem := List.getElem?_eq_getElem (hbound node List.mem_cons_self)
      rw [List.cons_append, runEach_cons hsystem, runEach_cons hsystem]
      dsimp only
      rw [ih fun other hother => hbound other (List.mem_cons_of_mem _ hother)]
      rfl

/-- The units that are handed in together run one after the other. -/
theorem submitAll_eq_runEach {pool : Pool} {entries : List (Nat × PlannedSystem β)}
    (hentries : ∀ entry ∈ entries, plan.systems[entry.1]? = some entry.2 ∧
      pool.lane? = some (lanes entry.1)) (workspace : Workspace σ) :
    pool.submitAll (entries.map fun entry => entry.2.work context) workspace =
      let run := plan.runEach context lanes (entries.map Prod.fst) workspace
      (run.1.map Prod.snd, run.2) := by
  induction entries generalizing workspace with
  | nil => rfl
  | cons entry entries ih =>
      obtain ⟨hsystem, hlane⟩ := hentries entry List.mem_cons_self
      rw [List.map_cons, List.map_cons, runEach_cons hsystem, Pool.submitAll, Pool.submit,
        hlane]
      dsimp only
      rw [ih fun other hother => hentries other (List.mem_cons_of_mem _ hother)]
      rfl

theorem runAll_eq_submitAll {τ : Type*} (works : List (Work τ)) (state : τ) :
    Pool.runAll works state = Pool.inline.submitAll works state := by
  induction works generalizing state with
  | nil => rfl
  | cons work works ih =>
      rw [Pool.runAll, Pool.submitAll]
      dsimp only
      rw [ih]
      rfl

end RunEach

theorem lookup_append_comm {κ γ : Type*} [DecidableEq κ] {left right : List (κ × γ)}
    (hdisjoint : (left.map Prod.fst).Disjoint (right.map Prod.fst)) (key : κ) :
    (left ++ right).lookup key = (right ++ left).lookup key := by
  rw [List.lookup_append, List.lookup_append]
  cases hleft : left.lookup key with
  | none => rw [Option.none_or, Option.or_none]
  | some value =>
      have hkey : key ∈ left.map Prod.fst :=
        List.mem_map_of_mem (f := Prod.fst) (mem_of_lookup_eq_some hleft)
      have hright : right.lookup key = none :=
        lookup_eq_none_of_not_mem fun hkey' => hdisjoint hkey hkey'
      rw [hright, Option.none_or, Option.some_or]

/-- Results that are looked up for each position are the same results. -/
theorem lookup_filterMap_lookup {γ : Type*} (nodes : List Nat) (results : List (Nat × γ))
    (node : Nat) :
    (nodes.filterMap fun other => (results.lookup other).map (other, ·)).lookup node =
      if node ∈ nodes then results.lookup node else none := by
  induction nodes with
  | nil => rfl
  | cons head nodes ih =>
      rw [List.filterMap_cons]
      by_cases heq : node = head
      · subst heq
        cases hfound : results.lookup node with
        | none => simp [ih, hfound]
        | some result => simp
      · have hne : (node == head) = false := beq_false_of_ne heq
        cases results.lookup head with
        | none => simp [ih, heq]
        | some result => simp [ih, heq, List.lookup_cons, hne]

theorem map_fst_systemsAt {plan : Plan β} {nodes : List Nat}
    (hbound : ∀ node ∈ nodes, node < plan.systems.length) :
    (plan.systemsAt nodes).map Prod.fst = nodes := by
  induction nodes with
  | nil => rfl
  | cons node nodes ih =>
      have hsystem := List.getElem?_eq_getElem (hbound node List.mem_cons_self)
      rw [systemsAt, List.filterMap_cons, hsystem]
      exact congrArg _ (ih fun other hother => hbound other (List.mem_cons_of_mem _ hother))

theorem getElem?_of_mem_systemsAt {plan : Plan β} {nodes : List Nat}
    {entry : Nat × PlannedSystem β} (hentry : entry ∈ plan.systemsAt nodes) :
    plan.systems[entry.1]? = some entry.2 := by
  obtain ⟨node, -, hfound⟩ := List.mem_filterMap.mp hentry
  obtain ⟨system, hsystem, rfl⟩ := Option.map_eq_some_iff.mp hfound
  exact hsystem

def isBound (plan : Plan β) (node : Nat) : Bool :=
  (plan.systems[node]?).any PlannedSystem.onMainThread

/-- The thread of a system that shares its round with others. -/
def laneOf (plan : Plan β) (lane : Lane) (node : Nat) : Lane :=
  if plan.isBound node then .coordinator else lane

theorem map_fst_filter_systemsAt {plan : Plan β} {nodes : List Nat}
    (hbound : ∀ node ∈ nodes, node < plan.systems.length) (keep : Bool → Bool) :
    ((plan.systemsAt nodes).filter fun entry => keep entry.2.onMainThread).map Prod.fst =
      nodes.filter fun node => keep (plan.isBound node) := by
  conv_rhs => rw [← map_fst_systemsAt hbound, List.filter_map]
  congr 1
  apply List.filter_congr
  intro entry hentry
  rw [Function.comp_apply, isBound, getElem?_of_mem_systemsAt hentry, Option.any_some]

section Dispatch

variable [Behaviour β σ] {plan : Plan β} {pool : Pool} {lane : Lane}

/-- A position alone runs on the coordinating thread. -/
theorem dispatch_singleton (pool : Pool) (context : TickContext) {node : Nat}
    (hbound : node < plan.systems.length) (workspace : Workspace σ) :
    plan.dispatch pool context [node] workspace =
      plan.runEach context (fun _ => .coordinator) [node] workspace := by
  have hsystem := List.getElem?_eq_getElem hbound
  rw [runEach_cons hsystem]
  simp only [dispatch, systemsAt, List.filterMap_cons, hsystem, Option.map_some]
  rfl

/-- Otherwise the pool takes what it may, and the coordinator runs the rest. -/
theorem dispatch_eq_submitAll (pool : Pool) (context : TickContext) {nodes : List Nat}
    (hbound : ∀ node ∈ nodes, node < plan.systems.length) (hlength : nodes.length ≠ 1)
    (lanes : Nat → Lane) (hlanes : ∀ node, plan.isBound node = true → lanes node = .coordinator)
    (workspace : Workspace σ) :
    plan.dispatch pool context nodes workspace =
      let entries := (plan.systemsAt nodes).filter fun entry => !entry.2.onMainThread
      let pooled := pool.submitAll (entries.map fun entry => entry.2.work context) workspace
      let bound := plan.runEach context lanes (nodes.filter fun node => plan.isBound node)
        pooled.2
      (nodes.filterMap fun node =>
          ((bound.1 ++ (entries.map Prod.fst).zip pooled.1).lookup node).map (node, ·),
        bound.2) := by
  have hkeys := map_fst_systemsAt hbound
  have hmain : ∀ entry ∈ (plan.systemsAt nodes).filter fun entry => entry.2.onMainThread,
      plan.systems[entry.1]? = some entry.2 ∧
        Pool.inline.lane? = some (lanes entry.1) := by
    intro entry hentry
    obtain ⟨hentry, hbound⟩ := List.mem_filter.mp hentry
    have hsystem := getElem?_of_mem_systemsAt hentry
    rw [hlanes entry.1 (by rw [isBound, hsystem]; exact hbound)]
    exact ⟨hsystem, rfl⟩
  have hmainKeys : ((plan.systemsAt nodes).filter fun entry => entry.2.onMainThread).map
      Prod.fst = nodes.filter fun node => plan.isBound node := map_fst_filter_systemsAt hbound id
  rw [dispatch]
  split
  case h_1 only hentries =>
    rw [hentries] at hkeys
    exact absurd (congrArg List.length hkeys).symm hlength
  case h_2 =>
    dsimp only
    rw [runAll_eq_submitAll, submitAll_eq_runEach hmain, hmainKeys]
    dsimp only
    rw [zip_runEach fun node hnode => hbound node (List.mem_of_mem_filter hnode)]

/-- A pool that runs its units runs what it may first, and the coordinator turns to the
rest. -/
theorem dispatch_of_length_ne_one (hlane : pool.lane? = some lane) (context : TickContext)
    {nodes : List Nat} (hbound : ∀ node ∈ nodes, node < plan.systems.length)
    (hlength : nodes.length ≠ 1) (workspace : Workspace σ) :
    plan.dispatch pool context nodes workspace =
      let pooled := plan.runEach context (plan.laneOf lane)
        (nodes.filter fun node => !plan.isBound node) workspace
      let bound := plan.runEach context (plan.laneOf lane)
        (nodes.filter fun node => plan.isBound node) pooled.2
      (nodes.filterMap fun node => ((bound.1 ++ pooled.1).lookup node).map (node, ·),
        bound.2) := by
  have hpooled : ∀ entry ∈ (plan.systemsAt nodes).filter fun entry => !entry.2.onMainThread,
      plan.systems[entry.1]? = some entry.2 ∧
        pool.lane? = some (plan.laneOf lane entry.1) := by
    intro entry hentry
    obtain ⟨hentry, hfree⟩ := List.mem_filter.mp hentry
    have hsystem := getElem?_of_mem_systemsAt hentry
    rw [Bool.not_eq_true'] at hfree
    exact ⟨hsystem, by simp [laneOf, isBound, hsystem, hfree, hlane]⟩
  have hpooledKeys : ((plan.systemsAt nodes).filter fun entry => !entry.2.onMainThread).map
      Prod.fst = nodes.filter fun node => !plan.isBound node := map_fst_filter_systemsAt hbound not
  rw [dispatch_eq_submitAll pool context hbound hlength (plan.laneOf lane)
    fun node hnode => if_pos hnode]
  dsimp only
  rw [submitAll_eq_runEach hpooled, hpooledKeys]
  dsimp only
  rw [zip_runEach fun node hnode => hbound node (List.mem_of_mem_filter hnode)]

/-- A closed pool refuses what it is given, so the coordinator's systems are all that
runs. -/
theorem dispatch_closed (context : TickContext) {nodes : List Nat}
    (hbound : ∀ node ∈ nodes, node < plan.systems.length) (hlength : nodes.length ≠ 1)
    (workspace : Workspace σ) :
    plan.dispatch .closed context nodes workspace =
      let bound := plan.runEach context (fun _ => .coordinator)
        (nodes.filter fun node => plan.isBound node) workspace
      let refused := (nodes.filter fun node => !plan.isBound node).map fun node =>
        (node, (.error .disconnected : TaskResult))
      (nodes.filterMap fun node => ((bound.1 ++ refused).lookup node).map (node, ·),
        bound.2) := by
  have hpooledKeys : ((plan.systemsAt nodes).filter fun entry => !entry.2.onMainThread).map
      Prod.fst = nodes.filter fun node => !plan.isBound node := map_fst_filter_systemsAt hbound not
  rw [dispatch_eq_submitAll .closed context hbound hlength (fun _ => .coordinator) fun _ _ => rfl]
  dsimp only
  rw [Pool.submitAll_closed, ← hpooledKeys, List.map_map, List.map_map, List.zip_map']
  rfl

/-- A pool that runs its units runs the systems at the given positions in some order, and
the results are found under the same positions. -/
theorem dispatch_eq_runEach (hlane : pool.lane? = some lane) (context : TickContext)
    {nodes : List Nat} (hnodup : nodes.Nodup)
    (hbound : ∀ node ∈ nodes, node < plan.systems.length) (workspace : Workspace σ) :
    ∃ lanes order, order.Perm nodes ∧
      (plan.dispatch pool context nodes workspace).2 =
        (plan.runEach context lanes order workspace).2 ∧
      ∀ node, (plan.dispatch pool context nodes workspace).1.lookup node =
        (plan.runEach context lanes order workspace).1.lookup node := by
  by_cases hlength : nodes.length = 1
  · obtain ⟨node, rfl⟩ := List.length_eq_one_iff.mp hlength
    have hrun := dispatch_singleton pool context (hbound node List.mem_cons_self) workspace
    exact ⟨_, [node], List.Perm.refl _, congrArg Prod.snd hrun, fun other => by rw [hrun]⟩
  let pooled := nodes.filter fun node => !plan.isBound node
  let bound := nodes.filter fun node => plan.isBound node
  have hperm : (pooled ++ bound).Perm nodes :=
    List.perm_append_comm.trans (List.filter_append_perm _ _)
  have hlt := List.forall_mem_append.mp fun node hnode => hbound node (hperm.mem_iff.mp hnode)
  refine ⟨plan.laneOf lane, pooled ++ bound, hperm, ?_, ?_⟩
  · rw [dispatch_of_length_ne_one hlane context hbound hlength, runEach_append hlt.1]
  · intro node
    rw [dispatch_of_length_ne_one hlane context hbound hlength, runEach_append hlt.1]
    dsimp only
    have hleft := map_fst_runEach context (plan.laneOf lane) hlt.1 workspace
    have hright := map_fst_runEach context (plan.laneOf lane) hlt.2
      (plan.runEach context (plan.laneOf lane) pooled workspace).2
    have hdisjoint := List.disjoint_of_nodup_append (hperm.nodup_iff.mpr hnodup)
    rw [lookup_filterMap_lookup]
    split
    case isTrue =>
      apply lookup_append_comm
      rw [hleft, hright]
      exact List.disjoint_symm hdisjoint
    case isFalse hnot =>
      symm
      apply lookup_eq_none_of_not_mem
      rw [List.map_append, hleft, hright, hperm.mem_iff]
      exact hnot

end Dispatch

end Plan

end TickWaves
