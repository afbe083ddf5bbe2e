import TickWaves.Proofs.Order.Lookup
import TickWaves.Proofs.Tick.Standing

/-!
# The course of a tick

A tick runs its waves up to the first one before which a cancellation is seen
(`execute_eq_upTo`).  What is decided about the systems by then depends on nothing but the
results of the units that were run (`fates_upTo`): a member of a wave that is blocked is
skipped, and every other one has the status that its result gives it.
-/

namespace TickWaves

universe u v

theorem Settled.fates_cons (entry : Settled) (settled : List Settled) (node : Nat) :
    Settled.fates (entry :: settled) node =
      (if entry.node = node then some entry.status else none).or
        (Settled.fates settled node) :=
  (Settled.fates_append [entry] settled node).trans
    (congrArg (Option.or · _) (Settled.fates_concat [] entry node))

theorem Settled.fates_filterMap (nodes : List Nat) (decide? : Nat → Option Status)
    (node : Nat) :
    Settled.fates (nodes.filterMap fun other =>
        (decide? other).map fun status => ⟨other, status, none⟩) node =
      if node ∈ nodes then decide? node else none := by
  induction nodes with
  | nil => rfl
  | cons head nodes ih =>
      cases hstatus : decide? head with
      | none =>
          rw [List.filterMap_cons_none (by rw [hstatus, Option.map_none]), ih]
          by_cases heq : node = head
          · simp [heq, hstatus]
          · simp [heq]
      | some status =>
          rw [List.filterMap_cons_some (by rw [hstatus, Option.map_some]), fates_cons, ih]
          by_cases heq : node = head
          · simp [heq, hstatus]
          · simp [heq, Ne.symm heq]

namespace Plan

variable {β : Type u} {σ : Type v}

/-- What is decided about a member of a wave that has the result that `answers` says if it
is run. -/
def decision (plan : Plan β) (answers : Nat → TaskResult) (fates : Nat → Option Status)
    (node : Nat) : Status :=
  match plan.blockerBy fates node with
  | some id => .skipped id
  | none => statusOf (answers node)

/-- What is decided after a wave. -/
def pass (plan : Plan β) (answers : Nat → TaskResult) (nodes : List Nat)
    (fates : Nat → Option Status) (node : Nat) : Option Status :=
  (fates node).or (if node ∈ nodes then some (plan.decision answers fates node) else none)

/-- What is decided after the first waves. -/
def fatesAfter (plan : Plan β) (answers : Nat → TaskResult) : Nat → Nat → Option Status
  | 0 => fun _ => none
  | count + 1 =>
      match plan.waves[count]? with
      | none => plan.fatesAfter answers count
      | some wave => plan.pass answers wave.nodes (plan.fatesAfter answers count)

theorem fatesAfter_succ {plan : Plan β} {count : Nat} {wave : Wave}
    (hwave : plan.waves[count]? = some wave) (answers : Nat → TaskResult) :
    plan.fatesAfter answers (count + 1) =
      plan.pass answers wave.nodes (plan.fatesAfter answers count) := by
  rw [fatesAfter, hwave]

theorem fates_skipped (plan : Plan β) (nodes : List Nat) (settled : List Settled)
    (node : Nat) :
    Settled.fates (nodes.filterMap (plan.skip? settled)) node =
      if node ∈ nodes then (plan.blocker? settled node).map .skipped else none := by
  rw [← Settled.fates_filterMap nodes fun other => (plan.blocker? settled other).map .skipped]
  congr 1
  apply List.filterMap_congr
  intro other _
  rw [skip?, Option.map_map]
  rfl

/-- Skipping what is blocked and settling the rest by its results is a pass over the
wave. -/
theorem pass_eq_or (plan : Plan β) (answers : Nat → TaskResult) (nodes : List Nat)
    (settled : List Settled) (node : Nat) :
    plan.pass answers nodes (Settled.fates settled) node =
      ((Settled.fates settled node).or
        (Settled.fates (nodes.filterMap (plan.skip? settled)) node)).or
          (if node ∈ nodes.filter fun other => (plan.blocker? settled other).isNone then
            some (statusOf (answers node))
          else none) := by
  rw [pass, decision, Option.or_assoc, fates_skipped, ← blocker?_eq_blockerBy]
  congr 1
  by_cases hnode : node ∈ nodes
  · cases hblocker : plan.blocker? settled node with
    | none => simp [hnode, hblocker]
    | some id => simp [hnode]
  · simp [hnode]

section Run

variable [Behaviour β σ]

/-- What the first waves of a tick decide and leave behind, if nothing stops it before. -/
def upTo (plan : Plan β) (pool : Pool) (context : TickContext) (workspace : Workspace σ) :
    Nat → List Settled × Workspace σ
  | 0 => ([], workspace)
  | count + 1 =>
      let (settled, workspace) := plan.upTo pool context workspace count
      match plan.waves[count]? with
      | none => (settled, workspace)
      | some wave => plan.runWave pool context wave.nodes settled workspace

def runnableAt (plan : Plan β) (pool : Pool) (context : TickContext) (workspace : Workspace σ)
    (index : Nat) : List Nat :=
  match plan.waves[index]? with
  | none => []
  | some wave => wave.nodes.filter fun node =>
      (plan.blocker? (plan.upTo pool context workspace index).1 node).isNone

def resultsAt (plan : Plan β) (pool : Pool) (context : TickContext) (workspace : Workspace σ)
    (index : Nat) : List (Nat × TaskResult) :=
  (plan.dispatch pool context (plan.runnableAt pool context workspace index)
    (plan.upTo pool context workspace index).2).1

/-- The first wave at whose start a cancellation is seen, or else the number of waves. -/
def firstHalt (plan : Plan β) (pool : Pool) (context : TickContext) (halt : Nat → σ → Bool)
    (workspace : Workspace σ) : Nat :=
  ((List.range plan.waves.length).find? fun index =>
    halt index (plan.upTo pool context workspace index).2.shared).getD plan.waves.length

variable {plan : Plan β} {pool : Pool} {context : TickContext} {halt : Nat → σ → Bool}
variable {workspace : Workspace σ}

theorem upTo_succ {count : Nat} {wave : Wave} (hwave : plan.waves[count]? = some wave) :
    plan.upTo pool context workspace (count + 1) =
      plan.runWave pool context wave.nodes (plan.upTo pool context workspace count).1
        (plan.upTo pool context workspace count).2 := by
  rw [upTo, hwave]

theorem mem_runnableAt {index node : Nat} :
    node ∈ plan.runnableAt pool context workspace index ↔
      plan.IsIn node index ∧
        plan.blocker? (plan.upTo pool context workspace index).1 node = none := by
  rw [runnableAt, IsIn]
  cases plan.waves[index]? with
  | none => simp
  | some wave => simp

/-- The waves from one on run up to the first cancellation. -/
theorem runWaves_drop {start rest : Nat} (hlength : start + rest ≤ plan.waves.length)
    (hclear : ∀ index < start + rest,
      halt index (plan.upTo pool context workspace index).2.shared = false)
    (hhalt : start + rest < plan.waves.length →
      halt (start + rest) (plan.upTo pool context workspace (start + rest)).2.shared = true) :
    plan.runWaves pool context halt (plan.waves.drop start) start
        (plan.upTo pool context workspace start).1 (plan.upTo pool context workspace start).2 =
      ⟨(plan.upTo pool context workspace (start + rest)).1, start + rest,
        decide (start + rest < plan.waves.length),
        (plan.upTo pool context workspace (start + rest)).2⟩ := by
  induction rest generalizing start with
  | zero =>
      rw [Nat.add_zero] at hlength hhalt ⊢
      by_cases hlt : start < plan.waves.length
      · rw [List.drop_eq_getElem_cons hlt, runWaves, if_pos (hhalt hlt), decide_eq_true hlt]
      · rw [List.drop_eq_nil_of_le (Nat.not_lt.mp hlt), runWaves, decide_eq_false hlt]
  | succ rest ih =>
      have hlt : start < plan.waves.length := by omega
      have hsucc : start + (rest + 1) = start + 1 + rest := by omega
      rw [hsucc] at hlength hclear hhalt ⊢
      have hgo : ¬ halt start (plan.upTo pool context workspace start).2.shared = true := by
        rw [hclear start (by omega)]
        exact Bool.false_ne_true
      rw [List.drop_eq_getElem_cons hlt, runWaves, if_neg hgo]
      dsimp only
      rw [← upTo_succ (List.getElem?_eq_getElem hlt)]
      exact ih hlength hclear hhalt

theorem firstHalt_le : plan.firstHalt pool context halt workspace ≤ plan.waves.length := by
  rw [firstHalt]
  cases hfound : (List.range plan.waves.length).find? fun index =>
      halt index (plan.upTo pool context workspace index).2.shared with
  | none => exact Nat.le_refl _
  | some index => exact Nat.le_of_lt (List.mem_range.mp (List.mem_of_find?_eq_some hfound))

/-- No cancellation is seen before the waves ahead of the first halt. -/
theorem halt_eq_false_of_lt_firstHalt {index : Nat}
    (hlt : index < plan.firstHalt pool context halt workspace) :
    halt index (plan.upTo pool context workspace index).2.shared = false := by
  have hlength : index < plan.waves.length := Nat.lt_of_lt_of_le hlt firstHalt_le
  rw [firstHalt] at hlt
  cases hfound : (List.range plan.waves.length).find? fun index =>
      halt index (plan.upTo pool context workspace index).2.shared with
  | none =>
      have hnone := List.find?_eq_none.mp hfound index (List.mem_range.mpr hlength)
      exact Bool.eq_false_iff.mpr hnone
  | some first =>
      rw [hfound, Option.getD_some] at hlt
      have hbefore := (List.find?_range_eq_some.mp hfound).2.2 index hlt
      simpa using hbefore

theorem halt_firstHalt
    (hlt : plan.firstHalt pool context halt workspace < plan.waves.length) :
    halt (plan.firstHalt pool context halt workspace)
      (plan.upTo pool context workspace
        (plan.firstHalt pool context halt workspace)).2.shared = true := by
  rw [firstHalt] at hlt ⊢
  cases hfound : (List.range plan.waves.length).find? fun index =>
      halt index (plan.upTo pool context workspace index).2.shared with
  | none =>
      rw [hfound] at hlt
      exact absurd hlt (Nat.lt_irrefl _)
  | some first => exact (List.find?_range_eq_some.mp hfound).1

/-- A tick runs the waves before the first halt. -/
theorem execute_eq_upTo (plan : Plan β) (pool : Pool) (context : TickContext)
    (halt : Nat → σ → Bool) (workspace : Workspace σ) :
    plan.execute pool context halt workspace =
      let count := plan.firstHalt pool context halt workspace
      ({ tick := context.tick
         generation := plan.generation
         outcomes := plan.outcomes (plan.upTo pool context workspace count).1
         wavesRun := count
         isCancelled := decide (count < plan.waves.length) },
       (plan.upTo pool context workspace count).2) := by
  have hruns : plan.runWaves pool context halt plan.waves 0 [] workspace = _ :=
    runWaves_drop ((Nat.zero_add _).le.trans firstHalt_le)
      (fun index hlt => halt_eq_false_of_lt_firstHalt (by rwa [Nat.zero_add] at hlt))
      (by rw [Nat.zero_add]; exact halt_firstHalt)
  rw [execute, hruns, Nat.zero_add]

/-- Whatever the pool, each of the given positions has one result, in their order. -/
theorem map_fst_dispatch (plan : Plan β) (pool : Pool) (context : TickContext) {nodes : List Nat}
    (hbound : ∀ node ∈ nodes, node < plan.systems.length) (workspace : Workspace σ) :
    (plan.dispatch pool context nodes workspace).1.map Prod.fst = nodes := by
  have hentries := map_fst_systemsAt hbound
  rw [dispatch]
  split
  case h_1 only honly =>
    rw [honly] at hentries
    exact hentries
  case h_2 =>
    apply map_fst_filterMap_lookup
    intro node hnode
    rw [← hentries] at hnode
    obtain ⟨entry, hentry, rfl⟩ := List.mem_map.mp hnode
    rw [List.map_append, List.map_fst_zip, List.map_fst_zip, List.mem_append]
    · cases hthread : entry.2.onMainThread with
      | true => exact Or.inl (List.mem_map_of_mem (List.mem_filter.mpr ⟨hentry, hthread⟩))
      | false =>
          refine Or.inr (List.mem_map_of_mem (List.mem_filter.mpr ⟨hentry, ?_⟩))
          rw [hthread]
          rfl
    · rw [Pool.length_submitAll, List.length_map, List.length_map]
    · rw [runAll_eq_submitAll, Pool.length_submitAll, List.length_map, List.length_map]

/-- A wave whose units have the results that `answers` says is a pass. -/
theorem fates_runWave {nodes : List Nat} (hbound : ∀ node ∈ nodes, node < plan.systems.length)
    {answers : Nat → TaskResult} {settled : List Settled}
    (hanswers : ∀ entry ∈ (plan.dispatch pool context
        (nodes.filter fun node => (plan.blocker? settled node).isNone) workspace).1,
      entry.2 = answers entry.1) :
    Settled.fates (plan.runWave pool context nodes settled workspace).1 =
      plan.pass answers nodes (Settled.fates settled) := by
  let runnable := nodes.filter fun node => (plan.blocker? settled node).isNone
  have hkeys : (plan.dispatch pool context runnable workspace).1.map Prod.fst = runnable :=
    map_fst_dispatch plan pool context
      (fun node hnode => hbound node (List.mem_of_mem_filter hnode)) workspace
  funext node
  rw [runWave, pass_eq_or, Settled.fates_append, Settled.fates_append, fates_map_settle]
  rw [lookup_eq_of_forall hanswers, hkeys]
  congr 1
  split <;> rfl

/-- If the units of the first waves have the results that `answers` says, then `answers`
decides about all systems of these waves. -/
theorem fates_upTo {answers : Nat → TaskResult} {count : Nat}
    (hbound : ∀ wave ∈ plan.waves, ∀ node ∈ wave.nodes, node < plan.systems.length)
    (hanswers : ∀ index < count, ∀ entry ∈ plan.resultsAt pool context workspace index,
      entry.2 = answers entry.1) :
    Settled.fates (plan.upTo pool context workspace count).1 = plan.fatesAfter answers count := by
  induction count with
  | zero => rfl
  | succ count ih =>
      have hbefore := ih fun index hlt => hanswers index (Nat.lt_succ_of_lt hlt)
      cases hwave : plan.waves[count]? with
      | none =>
          rw [upTo, fatesAfter, hwave]
          exact hbefore
      | some wave =>
          have hlast := hanswers count (Nat.lt_succ_self _)
          rw [resultsAt, runnableAt, hwave] at hlast
          rw [upTo_succ hwave, fatesAfter_succ hwave, ← hbefore]
          exact fates_runWave (hbound wave (List.mem_of_getElem? hwave)) hlast

end Run

end Plan

end TickWaves
