import TickWaves.Proofs.Tick.Journal

/-!
# Which results come from a run

A system has a result without being run in two cases: the pool is closed, or the body of the
system was released.  Such a result is an error and no panic.  Every other result is that of
the one run of the system (`exists_answered_dispatch`), so whatever the pool and whatever the
plan has lost, no body is run twice in a tick (`IsTidy.nodup_map_id_journalUpTo`).
-/

namespace TickWaves.Plan

universe u v

variable {β : Type u} {σ : Type v} [Behaviour β σ]
variable {plan : Plan β} {pool : Pool} {context : TickContext} {removed : List SystemId}

/-- Whatever the pool, some of the systems at the given positions are run in some order, and
the others have the result that the pool is closed. -/
theorem exists_order_dispatch (pool : Pool) (context : TickContext) {nodes : List Nat}
    (hnodup : nodes.Nodup) (hbound : ∀ node ∈ nodes, node < plan.systems.length)
    (workspace : Workspace σ) :
    ∃ lanes order, order.Nodup ∧ order ⊆ nodes ∧
      (plan.dispatch pool context nodes workspace).2 =
        (plan.runEach context lanes order workspace).2 ∧
      ∀ entry ∈ (plan.dispatch pool context nodes workspace).1,
        entry ∈ (plan.runEach context lanes order workspace).1 ∨
          pool = .closed ∧ entry.1 ∉ order ∧ entry.2 = .error .disconnected := by
  by_cases hopen : pool = .closed
  · subst hopen
    by_cases hlength : nodes.length = 1
    · obtain ⟨node, rfl⟩ := List.length_eq_one_iff.mp hlength
      rw [dispatch_singleton .closed context (hbound node List.mem_cons_self)]
      exact ⟨_, [node], hnodup, List.Subset.refl _, rfl, fun _ hentry => Or.inl hentry⟩
    · refine ⟨fun _ => .coordinator, nodes.filter fun node => plan.isBound node,
        hnodup.filter _, List.filter_subset_self _, ?_, ?_⟩
      · rw [dispatch_closed context hbound hlength]
      · rw [dispatch_closed context hbound hlength]
        intro entry hentry
        obtain ⟨node, -, hfound⟩ := List.mem_filterMap.mp hentry
        obtain ⟨result, hresult, rfl⟩ := Option.map_eq_some_iff.mp hfound
        rcases List.mem_append.mp (mem_of_lookup_eq_some hresult) with hran | hrefused
        · exact Or.inl hran
        · obtain ⟨other, hother, heq⟩ := List.mem_map.mp hrefused
          obtain ⟨rfl, rfl⟩ := Prod.mk.inj heq
          refine Or.inr ⟨rfl, fun hmem => ?_, rfl⟩
          have hfree := (List.mem_filter.mp hother).2
          rw [(List.mem_filter.mp hmem).2] at hfree
          cases hfree
  · obtain ⟨lane, hlane⟩ := Pool.exists_lane?_eq_some hopen
    obtain ⟨lanes, order, hperm, hstate, hlookup⟩ :=
      dispatch_eq_runEach hlane context hnodup hbound workspace
    refine ⟨lanes, order, hperm.nodup_iff.mpr hnodup, hperm.subset, hstate, ?_⟩
    intro entry hentry
    have hkeys := map_fst_dispatch plan pool context hbound workspace
    have hfound := lookup_eq_some_of_mem (by rwa [hkeys]) hentry
    rw [hlookup] at hfound
    exact Or.inl (mem_of_lookup_eq_some hfound)

/-- How a position comes by its result. -/
inductive Answered (plan : Plan β) (pool : Pool) (context : TickContext)
    (runs : List (BodyRun β σ)) (entry : Nat × TaskResult) : Prop
  /-- It is the result of a run. -/
  | ran (run : BodyRun β σ) :
      run ∈ runs → plan.IsRunAt context entry.1 run → entry.2 = run.reply.ending.result →
        Answered plan pool context runs entry
  /-- Nothing was run, which is an error. -/
  | idle (error : TaskError) :
      (∀ run ∈ runs, ¬ plan.IsRunAt context entry.1 run) →
        pool = .closed ∨ plan.hasBody entry.1 = false →
          entry.2 = .error error → (∀ message, error ≠ .panicked message) →
            Answered plan pool context runs entry

theorem IsRunAt.hasBody {node : Nat} {run : BodyRun β σ} (hat : plan.IsRunAt context node run) :
    plan.hasBody node = true := by
  obtain ⟨system, hsystem, -, hbody⟩ := hat.own
  rw [Plan.hasBody, hsystem, Option.any_some, hbody, Option.isSome_some]

theorem IsRunAt.map_id_eq {node : Nat} {run : BodyRun β σ} (hat : plan.IsRunAt context node run) :
    plan.systems[node]?.map PlannedSystem.id = some run.id := by
  obtain ⟨system, hsystem, hid, -⟩ := hat.own
  rw [hsystem, Option.map_some, hid]

/-- Every position has its result from a run of its own, or without one. -/
theorem exists_answered_dispatch (htidy : plan.IsTidy removed) (pool : Pool)
    (context : TickContext) {nodes : List Nat} (hnodup : nodes.Nodup)
    (hbound : ∀ node ∈ nodes, node < plan.systems.length)
    (workspace : Workspace (σ × List (BodyRun β σ))) :
    ∃ runs, (plan.noted.dispatch pool context nodes workspace).2.shared.2 =
        workspace.shared.2 ++ runs ∧
      (runs.map BodyRun.id).Nodup ∧
      (∀ run ∈ runs, ∃ node ∈ nodes, plan.IsRunAt context node run) ∧
      ∀ entry ∈ (plan.noted.dispatch pool context nodes workspace).1,
        plan.Answered pool context runs entry := by
  have hbound' : ∀ node ∈ nodes, node < plan.noted.systems.length := by
    rwa [noted, List.length_map]
  obtain ⟨lanes, order, horder, hsubset, hstate, hresults⟩ :=
    exists_order_dispatch pool context hnodup hbound' workspace
  obtain ⟨runs, hruns, hids, hown, hran⟩ := exists_notes_runEach context lanes
    (fun node hnode => hbound node (hsubset hnode)) workspace
  refine ⟨runs, by rw [hstate, hruns], ?_, ?_, ?_⟩
  · have hsome : (runs.map fun run => some run.id).Nodup := by
      rw [hids]
      exact htidy.nodup_map_id (horder.filter _) fun node hnode =>
        hbound node (hsubset (List.mem_of_mem_filter hnode))
    exact List.Nodup.of_map some (by rwa [List.map_map])
  · intro run hrun
    obtain ⟨node, hnode, hat⟩ := hown run hrun
    exact ⟨node, hsubset hnode, hat⟩
  · intro entry hentry
    rcases hresults entry hentry with hran' | ⟨hclosed, hout, hresult⟩
    · rcases hran entry hran' with ⟨run, hrun, hat, hresult⟩ | ⟨hlost, causes, hresult⟩
      · exact .ran run hrun hat hresult
      · refine .idle _ (fun run _ hat => ?_) (Or.inr hlost) hresult fun _ => TaskError.noConfusion
        exact Bool.false_ne_true (hlost.symm.trans hat.hasBody)
    · -- A run at this position would put the position among those that were run.
      refine .idle _ (fun run hrun hat => ?_) (Or.inl hclosed) hresult fun _ =>
        TaskError.noConfusion
      obtain ⟨node, hnode, hat'⟩ := hown run hrun
      obtain rfl := node_eq_of_map_id_eq htidy.nodup_ids hat.map_id_eq hat'.map_id_eq
      exact hout hnode

/-- What a wave adds to the journal, and how its results come about. -/
theorem exists_answered_resultsAt (htidy : plan.IsTidy removed) (pool : Pool)
    (context : TickContext) (workspace : Workspace σ) (count : Nat) :
    ∃ runs, plan.journalUpTo pool context workspace (count + 1) =
        plan.journalUpTo pool context workspace count ++ runs ∧
      (runs.map BodyRun.id).Nodup ∧
      (∀ run ∈ runs, ∃ node ∈ plan.runnableAt pool context workspace count,
        plan.IsRunAt context node run) ∧
      ∀ entry ∈ plan.resultsAt pool context workspace count,
        plan.Answered pool context runs entry := by
  rw [journalUpTo_succ, resultsAt_eq]
  exact exists_answered_dispatch htidy pool context
    (htidy.nodup_runnableAt pool context workspace count)
    (fun node hnode => htidy.lt_length (mem_runnableAt.mp hnode).1) _

/-- Whatever the pool, no body is run twice. -/
theorem IsTidy.nodup_map_id_journalUpTo (htidy : plan.IsTidy removed) (pool : Pool)
    (context : TickContext) (workspace : Workspace σ) (count : Nat) :
    ((plan.journalUpTo pool context workspace count).map BodyRun.id).Nodup := by
  induction count with
  | zero => exact List.nodup_nil
  | succ count ih =>
      obtain ⟨runs, hruns, hnodup, hown, -⟩ :=
        exists_answered_resultsAt htidy pool context workspace count
      rw [hruns, List.map_append, List.nodup_append']
      refine ⟨ih, hnodup, fun id hold hnew => ?_⟩
      obtain ⟨earlier, hearlier, hid⟩ := List.mem_map.mp hold
      obtain ⟨run, hrun, rfl⟩ := List.mem_map.mp hnew
      obtain ⟨node, hnode, hat⟩ := hown run hrun
      exact htidy.id_ne_of_mem_journalUpTo (mem_runnableAt.mp hnode).1 hat.map_id_eq
        (fun hlt => absurd hlt (Nat.lt_irrefl count)) earlier hearlier hid

theorem IsTidy.map_fst_resultsAt (htidy : plan.IsTidy removed) (pool : Pool)
    (context : TickContext) (workspace : Workspace σ) (index : Nat) :
    (plan.resultsAt pool context workspace index).map Prod.fst =
      plan.runnableAt pool context workspace index :=
  map_fst_dispatch plan pool context
    (fun _ hnode => htidy.lt_length (mem_runnableAt.mp hnode).1) _

end TickWaves.Plan
