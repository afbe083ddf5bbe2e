import TickWaves.Proofs.Order.Lookup
import TickWaves.Proofs.Plan.Layout
import TickWaves.Proofs.Tick.Accounting

/-!
# Systems in conflict never run at the same time

Whatever the bodies do and however the threads interleave, the systems underway at one
moment are members of one wave, so no two of them conflict.  The barrier at the end of a
wave sees to that: the coordinator fetches every result before it settles the wave, and
`IsSound` keeps count of the systems until then.  At the beginning of a wave all systems of
earlier waves are settled, so a system that is not blocked waits for nothing but systems
whose bodies have returned.
-/

namespace TickWaves

universe u

variable {β : Type u}

namespace Event

def begun? : Event Nat → Option Nat
  | began node => some node
  | ended _ _ _ => none

def ended? : Event Nat → Option Nat
  | began _ => none
  | ended node _ _ => some node

end Event

namespace Interleaving

def begun (log : List (Event Nat)) : List Nat := log.filterMap Event.begun?

def ended (log : List (Event Nat)) : List Nat := log.filterMap Event.ended?

/-- The body of a system has done its work. -/
def HasReturned (log : List (Event Nat)) (node : Nat) : Prop :=
  ∃ cancels, Event.ended node .done cancels ∈ log

theorem HasReturned.append {log : List (Event Nat)} {node : Nat} (hreturned : HasReturned log node)
    (later : List (Event Nat)) : HasReturned (log ++ later) node := by
  obtain ⟨cancels, hmem⟩ := hreturned
  exact ⟨cancels, List.mem_append_left _ hmem⟩

/-- The count of the systems of a wave and the decisions about earlier ones agree with what
was seen. -/
structure State.IsSound (plan : Plan β) (graph : Graph) (state : State) : Prop where
  accounted : (state.runnable : Multiset Nat) = state.tally.total
  located : ∀ node ∈ state.runnable, plan.IsIn node state.wavesRun
  idle : state.phase.isOpen = false → state.runnable = []
  fresh : (state.tally.unstarted + begun state.log).Nodup
  past : ∀ node ∈ begun state.log,
    node ∈ state.runnable ∨ ∃ index < state.wavesRun, plan.IsIn node index
  balance : (begun state.log : Multiset Nat) = ended state.log + state.tally.underway
  answered : ∀ answer ∈ state.tally.answers, ∃ ending cancels,
    Event.ended answer.1 ending cancels ∈ state.log ∧ answer.2 = ending.result
  decided : ∀ entry ∈ state.settled, entry.status ≠ .cancelled ∧
    (entry.status = .completed → HasReturned state.log entry.node)
  covered : ∀ node index, plan.IsIn node index → index < state.wavesRun →
    ∃ entry ∈ state.settled, entry.node = node
  current : state.phase.isOpen = true → ∀ node, plan.IsIn node state.wavesRun →
    node ∈ state.runnable ∨ ∃ entry ∈ state.settled, entry.node = node
  ready : ∀ node ∈ state.runnable, ∀ before, graph.Leads before node →
    HasReturned state.log before
  ordered : ∀ earlier node later, state.log = earlier ++ .began node :: later →
    ∀ before, graph.Leads before node → HasReturned earlier before

variable {plan : Plan β} {graph : Graph} {state state' : State}

theorem State.tally_start (size : Nat) (token : Bool) : (State.start size token).tally = 0 := by
  simp [State.tally, State.start, Crew.tally, Crew.ofSize, Crew.weigh, Phase.tally,
    Tally.ofAnswers]
  rfl

theorem State.isSound_start (plan : Plan β) (graph : Graph) (size : Nat) (token : Bool) :
    (State.start size token).IsSound plan graph := by
  have htally := State.tally_start size token
  constructor
  · rw [htally]
    rfl
  · exact fun _ hnode => absurd hnode List.not_mem_nil
  · exact fun _ => rfl
  · rw [htally]
    exact Multiset.nodup_zero
  · exact fun _ hnode => absurd hnode List.not_mem_nil
  · rw [htally]
    rfl
  · rw [htally]
    exact fun _ hanswer => absurd hanswer (Multiset.notMem_zero _)
  · exact fun _ hentry => absurd hentry List.not_mem_nil
  · exact fun _ index _ hlt => absurd hlt (Nat.not_lt_zero index)
  · exact fun hopen => absurd hopen Bool.false_ne_true
  · exact fun _ hnode => absurd hnode List.not_mem_nil
  · intro earlier node later hlog
    simp [State.start] at hlog

section Moved

variable {event? : Option (Event Nat)} {before after : Tally Nat} {log : List (Event Nat)}

/-- What has not begun and what has begun are the same systems before and after. -/
theorem unstarted_add_begun_eq (hmoves : Tally.Moves event? before after) :
    after.unstarted + begun (log ++ event?.toList) = before.unstarted + begun log := by
  rw [begun, begun, List.filterMap_append, ← Multiset.coe_add]
  match event?, hmoves with
  | none, hmoves =>
      rw [hmoves]
      exact congrArg _ (add_zero _)
  | some (.began node), ⟨hunstarted, _, _⟩ =>
      rw [hunstarted, ← Multiset.singleton_add]
      change _ + (_ + {node}) = _
      abel
  | some (.ended node ending cancels), ⟨hunstarted, _, _⟩ =>
      rw [hunstarted]
      exact congrArg _ (add_zero _)

theorem begun_eq_ended_add (hmoves : Tally.Moves event? before after)
    (hbalance : (begun log : Multiset Nat) = ended log + before.underway) :
    (begun (log ++ event?.toList) : Multiset Nat) =
      ended (log ++ event?.toList) + after.underway := by
  rw [begun, ended] at hbalance ⊢
  rw [List.filterMap_append, List.filterMap_append, ← Multiset.coe_add, ← Multiset.coe_add,
    hbalance]
  match event?, hmoves with
  | none, hmoves =>
      rw [hmoves]
      change _ + _ + 0 = _ + 0 + _
      abel
  | some (.began node), ⟨_, hunderway, _⟩ =>
      rw [hunderway, ← Multiset.singleton_add]
      change _ + _ + ({node} : Multiset Nat) = _ + 0 + _
      abel
  | some (.ended node ending cancels), ⟨_, hunderway, _⟩ =>
      rw [hunderway, ← Multiset.singleton_add]
      change _ + _ + 0 = _ + ({node} : Multiset Nat) + _
      abel

theorem mem_unstarted_of_began {node : Nat}
    (hmoves : Tally.Moves (some (.began node)) before after) : node ∈ before.unstarted := by
  rw [hmoves.1]
  exact Multiset.mem_cons_self node _

theorem exists_ended_of_mem_answers (hmoves : Tally.Moves event? before after)
    (hanswered : ∀ answer ∈ before.answers, ∃ ending cancels,
      Event.ended answer.1 ending cancels ∈ log ∧ answer.2 = ending.result)
    {answer : Nat × TaskResult} (hanswer : answer ∈ after.answers) :
    ∃ ending cancels, Event.ended answer.1 ending cancels ∈ log ++ event?.toList ∧
      answer.2 = ending.result := by
  have hold : answer ∈ before.answers → ∃ ending cancels,
      Event.ended answer.1 ending cancels ∈ log ++ event?.toList ∧
        answer.2 = ending.result := by
    intro hmem
    obtain ⟨ending, cancels, hended, hresult⟩ := hanswered answer hmem
    exact ⟨ending, cancels, List.mem_append_left _ hended, hresult⟩
  match event?, hmoves with
  | none, hmoves =>
      rw [hmoves] at hanswer
      exact hold hanswer
  | some (.began node), ⟨_, _, hanswers⟩ =>
      rw [hanswers] at hanswer
      exact hold hanswer
  | some (.ended node ending cancels), ⟨_, _, hanswers⟩ =>
      rw [hanswers, Multiset.mem_cons] at hanswer
      rcases hanswer with rfl | hmem
      · exact ⟨ending, cancels, List.mem_append_right _ List.mem_cons_self, rfl⟩
      · exact hold hmem

/-- An event at the end of a log is either the last one or one of those before. -/
theorem eq_append_cons_cases {event : Event Nat} {earlier later : List (Event Nat)}
    (hlog : log ++ event?.toList = earlier ++ event :: later) :
    (∃ later, log = earlier ++ event :: later) ∨ (event? = some event ∧ earlier = log) := by
  cases event? with
  | none =>
      rw [Option.toList_none, List.append_nil] at hlog
      exact Or.inl ⟨later, hlog⟩
  | some last =>
      rw [Option.toList_some] at hlog
      rcases List.eq_nil_or_concat later with rfl | ⟨rest, final, rfl⟩
      · obtain ⟨hlog, hlast⟩ := List.append_inj' hlog rfl
        exact Or.inr ⟨congrArg some (List.singleton_injective hlast), hlog.symm⟩
      · rw [List.concat_eq_append, ← List.cons_append, ← List.append_assoc] at hlog
        exact Or.inl ⟨rest, (List.append_inj' hlog rfl).1⟩

end Moved

theorem State.IsSound.mem_runnable (hsound : state.IsSound plan graph) {node : Nat}
    (hnode : node ∈ state.tally.total) : node ∈ state.runnable := by
  rw [← Multiset.mem_coe, hsound.accounted]
  exact hnode

theorem State.IsSound.mem_runnable_of_unstarted (hsound : state.IsSound plan graph) {node : Nat}
    (hnode : node ∈ state.tally.unstarted) : node ∈ state.runnable := by
  apply hsound.mem_runnable
  rw [Tally.total, add_assoc]
  exact Multiset.mem_add.mpr (Or.inl hnode)

/-- One system of the wave moves on. -/
theorem State.IsSound.moved (hsound : state.IsSound plan graph) {event? : Option (Event Nat)}
    (hmoves : Tally.Moves event? state.tally state'.tally)
    (hlog : state'.log = state.log ++ event?.toList) (hkeeps : State.Keeps state state') :
    state'.IsSound plan graph := by
  have hlater : ∀ {node}, HasReturned state.log node → HasReturned state'.log node := by
    intro node hreturned
    rw [hlog]
    exact hreturned.append _
  constructor
  · rw [hkeeps.runnable, hmoves.total_eq]
    exact hsound.accounted
  · rw [hkeeps.runnable, hkeeps.wavesRun]
    exact hsound.located
  · rw [hkeeps.runnable, hkeeps.isOpen]
    exact hsound.idle
  · rw [hlog, unstarted_add_begun_eq hmoves]
    exact hsound.fresh
  · intro node hnode
    rw [hkeeps.runnable, hkeeps.wavesRun]
    rw [hlog, begun, List.filterMap_append, List.mem_append] at hnode
    rcases hnode with hold | hnew
    · exact hsound.past node hold
    · left
      obtain ⟨event, hevent, hbegun⟩ := List.mem_filterMap.mp hnew
      rw [Option.mem_toList] at hevent
      match event, hbegun with
      | .began _, rfl =>
          rw [hevent] at hmoves
          exact hsound.mem_runnable_of_unstarted (mem_unstarted_of_began hmoves)
  · rw [hlog]
    exact begun_eq_ended_add hmoves hsound.balance
  · intro answer hanswer
    rw [hlog]
    exact exists_ended_of_mem_answers hmoves hsound.answered hanswer
  · rw [hkeeps.settled]
    intro entry hentry
    obtain ⟨hdecided, hreturned⟩ := hsound.decided entry hentry
    exact ⟨hdecided, fun hstatus => hlater (hreturned hstatus)⟩
  · rw [hkeeps.settled, hkeeps.wavesRun]
    exact hsound.covered
  · rw [hkeeps.settled, hkeeps.wavesRun, hkeeps.runnable, hkeeps.isOpen]
    exact hsound.current
  · rw [hkeeps.runnable]
    intro node hnode before hleads
    exact hlater (hsound.ready node hnode before hleads)
  · intro earlier node later heq before hleads
    rw [hlog] at heq
    rcases eq_append_cons_cases heq with ⟨rest, hrest⟩ | ⟨hlast, rfl⟩
    · exact hsound.ordered earlier node rest hrest before hleads
    · rw [hlast] at hmoves
      have hnode := hsound.mem_runnable_of_unstarted (mem_unstarted_of_began hmoves)
      exact hsound.ready node hnode before hleads

theorem tally_opened (plan : Plan β) {state : State} (hphase : state.phase = .gate)
    (nodes : List Nat) :
    (state.opened plan nodes).tally =
      state.tally + .ofUnstarted (state.opened plan nodes).runnable := by
  have hwave : (state.opened plan nodes).phase.tally =
      .ofUnstarted (state.opened plan nodes).runnable := Phase.tally_opening plan _
  rw [State.tally, State.tally, hwave, hphase]
  exact congrArg (· + _) (add_zero _).symm

/-- When all results are fetched, the wave is over but for its results. -/
theorem State.IsLinked.tally_of_waiting {state : State} (hlinked : state.IsLinked)
    (hphase : state.phase = .waiting) (hhandles : state.handles = []) :
    state.tally = .ofAnswers state.results ∧ state.closed.tally = 0 := by
  have hcrew : state.crew.tally = 0 := by
    apply Tally.eq_zero_of_total_eq_zero
    rw [← Crew.map_unit_jobs, hlinked.jobs, hhandles]
    rfl
  constructor
  · rw [State.tally, hcrew, hphase, zero_add]
    exact add_zero _
  · change state.crew.tally + 0 + 0 = 0
    rw [hcrew]
    rfl

/-- What the end of a wave decides agrees with how the bodies ended. -/
theorem decided_of_mem_closed
    (hended : ∀ answer ∈ state.results, ∃ ending cancels,
      Event.ended answer.1 ending cancels ∈ state.log ∧ answer.2 = ending.result)
    {entry : Settled} (hentry : entry ∈ state.closed.settled) (hnew : entry ∉ state.settled) :
    entry.status ≠ .cancelled ∧ (entry.status = .completed → HasReturned state.log entry.node) := by
  obtain ⟨node, -, hfound⟩ :=
    List.mem_filterMap.mp ((List.mem_append.mp hentry).resolve_left hnew)
  obtain ⟨result, hresult, rfl⟩ := Option.map_eq_some_iff.mp hfound
  obtain ⟨ending, cancels, hlog, rfl⟩ := hended _ (mem_of_lookup_eq_some hresult)
  cases ending with
  | done => exact ⟨Status.noConfusion, fun _ => ⟨cancels, hlog⟩⟩
  | failed causes => exact ⟨Status.noConfusion, Status.noConfusion⟩
  | panicked payload => exact ⟨Status.noConfusion, Status.noConfusion⟩

/-- The end of a wave decides about all that it has run. -/
theorem exists_mem_closed_of_mem_runnable
    (hresults : (state.runnable : Multiset Nat) = (state.results.map Prod.fst : List Nat))
    {node : Nat} (hnode : node ∈ state.runnable) :
    ∃ entry ∈ state.closed.settled, entry.node = node := by
  have hkey : node ∈ state.results.map Prod.fst := by
    rw [← Multiset.mem_coe, ← hresults]
    exact hnode
  obtain ⟨result, hresult⟩ := exists_lookup_eq_some hkey
  refine ⟨⟨node, Plan.statusOf result, none⟩, List.mem_append_right _ ?_, rfl⟩
  exact List.mem_filterMap.mpr ⟨node, hnode, by rw [hresult, Option.map_some]⟩

theorem State.IsSound.closed {state : State}
    (hsound : state.IsSound plan graph) (hlinked : state.IsLinked)
    (hphase : state.phase = .waiting) (hhandles : state.handles = []) :
    state.closed.IsSound plan graph := by
  obtain ⟨htally, hclosed⟩ := hlinked.tally_of_waiting hphase hhandles
  have hopen : state.phase.isOpen = true := by
    rw [hphase]
    rfl
  have hresults : (state.runnable : Multiset Nat) = (state.results.map Prod.fst : List Nat) := by
    rw [hsound.accounted, htally]
    simp [Tally.total, Tally.ofAnswers]
  have hended : ∀ answer ∈ state.results, ∃ ending cancels,
      Event.ended answer.1 ending cancels ∈ state.log ∧ answer.2 = ending.result := by
    have hanswered := hsound.answered
    rw [htally] at hanswered
    exact hanswered
  constructor
  · rw [hclosed]
    rfl
  · exact fun _ hnode => absurd hnode List.not_mem_nil
  · exact fun _ => rfl
  · have hfresh := hsound.fresh
    rw [htally] at hfresh
    rw [hclosed]
    exact hfresh
  · intro node hnode
    right
    rcases hsound.past node hnode with hmem | ⟨index, hlt, hin⟩
    · exact ⟨state.wavesRun, Nat.lt_succ_self _, hsound.located node hmem⟩
    · exact ⟨index, Nat.lt_succ_of_lt hlt, hin⟩
  · have hbalance := hsound.balance
    rw [htally] at hbalance
    rw [hclosed]
    exact hbalance
  · rw [hclosed]
    exact fun _ hanswer => absurd hanswer (Multiset.notMem_zero _)
  · intro entry hentry
    by_cases hold : entry ∈ state.settled
    · exact hsound.decided entry hold
    · exact decided_of_mem_closed hended hentry hold
  · intro node index hin hlt
    have hsettled : (∃ entry ∈ state.settled, entry.node = node) →
        ∃ entry ∈ state.closed.settled, entry.node = node := by
      rintro ⟨entry, hentry, hnode⟩
      exact ⟨entry, List.mem_append_left _ hentry, hnode⟩
    rcases Nat.lt_succ_iff_lt_or_eq.mp hlt with hearlier | rfl
    · exact hsettled (hsound.covered node index hin hearlier)
    · rcases hsound.current hopen node hin with hmem | hold
      · exact exists_mem_closed_of_mem_runnable hresults hmem
      · exact hsettled hold
  · exact fun hopen => absurd hopen Bool.false_ne_true
  · exact fun _ hnode => absurd hnode List.not_mem_nil
  · exact hsound.ordered

section Built

variable {systems : List (Descriptor β)} {tags : TagOrder} {generation : Nat}
variable (hbuild : Plan.build systems tags generation = .ok plan)
include hbuild

/-- A system that is not blocked waits for no system that failed or was skipped. -/
theorem status_of_blocker?_eq_none {settled : List Settled} {node before : Nat}
    (hblocker : plan.blocker? settled node = none)
    (hleads : (Graph.ofSystems systems tags).Leads before node) {entry : Settled}
    (hentry : Settled.find? settled before = some entry) :
    entry.status = .completed ∨ entry.status = .cancelled := by
  obtain ⟨first, second, rfl, rfl⟩ := Graph.fin_of_leads_assembled hleads
  rw [Plan.blocker?, Plan.getElem?_systems_of_build hbuild,
    List.getElem?_eq_getElem second.isLt] at hblocker
  have hclear := List.findSome?_eq_none_iff.mp hblocker first
    (Graph.mem_predecessors.mpr hleads)
  rw [hentry, Plan.getElem?_systems_of_build hbuild,
    List.getElem?_eq_getElem first.isLt] at hclear
  cases hstatus : entry.status with
  | completed => exact Or.inl rfl
  | cancelled => exact Or.inr rfl
  | failed error => simp [hstatus] at hclear
  | skipped id => simp [hstatus] at hclear

/-- What is not blocked when its wave begins waits for bodies that have returned. -/
theorem State.IsSound.hasReturned_of_leads {state : State}
    (hsound : state.IsSound plan (Graph.ofSystems systems tags)) {node before : Nat}
    (hblocker : plan.blocker? state.settled node = none)
    (hnode : plan.IsIn node state.wavesRun)
    (hleads : (Graph.ofSystems systems tags).Leads before node) :
    HasReturned state.log before := by
  obtain ⟨index, hbefore⟩ : ∃ index, plan.IsIn before index := by
    obtain ⟨first, -, rfl, -⟩ := Graph.fin_of_leads_assembled hleads
    exact Plan.exists_isIn hbuild first.isLt
  have hlt := Plan.index_lt_of_leads hbuild hleads hbefore hnode
  have hsettled : (Settled.find? state.settled before).isSome := by
    obtain ⟨entry, hentry, hsame⟩ := hsound.covered before index hbefore hlt
    exact List.find?_isSome.mpr ⟨entry, hentry, beq_iff_eq.mpr hsame⟩
  obtain ⟨entry, hentry⟩ := Option.isSome_iff_exists.mp hsettled
  have hfound : state.settled.find? (fun entry => entry.node == before) = some entry := hentry
  have htest := List.find?_some hfound
  have hsame : entry.node = before := beq_iff_eq.mp htest
  obtain ⟨hdecided, hreturned⟩ := hsound.decided entry (List.mem_of_find?_eq_some hfound)
  have hstatus := status_of_blocker?_eq_none hbuild hblocker hleads hentry
  rw [← hsame]
  exact hreturned (hstatus.resolve_right hdecided)

theorem State.IsSound.opened {state : State}
    (hsound : state.IsSound plan (Graph.ofSystems systems tags)) {wave : Wave}
    (hphase : state.phase = .gate) (hwave : plan.waves[state.wavesRun]? = some wave) :
    (state.opened plan wave.nodes).IsSound plan (Graph.ofSystems systems tags) := by
  have hidle : state.runnable = [] := by
    apply hsound.idle
    rw [hphase]
    rfl
  have hzero : state.tally = 0 := by
    apply Tally.eq_zero_of_total_eq_zero
    rw [← hsound.accounted, hidle]
    rfl
  have htally : (state.opened plan wave.nodes).tally =
      .ofUnstarted (state.opened plan wave.nodes).runnable := by
    rw [tally_opened plan hphase, hzero, zero_add]
  have hrunnable : ∀ node ∈ (state.opened plan wave.nodes).runnable,
      node ∈ wave.nodes ∧ plan.blocker? state.settled node = none := by
    intro node hnode
    obtain ⟨hmem, hnone⟩ := List.mem_filter.mp hnode
    exact ⟨hmem, Option.isNone_iff_eq_none.mp hnone⟩
  have hlocated : ∀ node ∈ (state.opened plan wave.nodes).runnable,
      plan.IsIn node state.wavesRun := fun node hnode =>
    ⟨wave, hwave, (hrunnable node hnode).1⟩
  have hpast : ∀ node ∈ begun state.log, ∃ index < state.wavesRun, plan.IsIn node index := by
    intro node hnode
    have hpast := hsound.past node hnode
    rw [hidle] at hpast
    exact hpast.resolve_left List.not_mem_nil
  constructor
  · rw [htally]
    simp [Tally.total, Tally.ofUnstarted]
  · exact hlocated
  · intro hclosed
    exact absurd (hclosed.symm.trans (Phase.isOpen_opening plan _)) Bool.false_ne_true
  · rw [htally]
    change ((state.opened plan wave.nodes).runnable + begun state.log : Multiset Nat).Nodup
    rw [Multiset.coe_add, Multiset.coe_nodup, List.nodup_append']
    refine ⟨(Plan.nodup_nodes_of_build hbuild (List.mem_of_getElem? hwave)).filter _, ?_, ?_⟩
    · have hfresh := hsound.fresh
      rw [hzero] at hfresh
      exact Multiset.coe_nodup.mp (Multiset.nodup_add.mp hfresh).2.1
    · intro node hnode hbegun
      obtain ⟨index, hlt, hin⟩ := hpast node hbegun
      have heq := Plan.IsIn.eq_index hbuild hin (hlocated node hnode)
      exact Nat.ne_of_lt hlt heq
  · exact fun node hnode => Or.inr (hpast node hnode)
  · have hbalance := hsound.balance
    rw [hzero] at hbalance
    rw [htally]
    exact hbalance
  · rw [htally]
    exact fun _ hanswer => absurd hanswer (Multiset.notMem_zero _)
  · intro entry hentry
    rcases List.mem_append.mp hentry with hold | hnew
    · exact hsound.decided entry hold
    · obtain ⟨node, -, hskip⟩ := List.mem_filterMap.mp hnew
      obtain ⟨id, -, rfl⟩ := Option.map_eq_some_iff.mp hskip
      exact ⟨Status.noConfusion, Status.noConfusion⟩
  · intro node index hin hlt
    obtain ⟨entry, hentry, hnode⟩ := hsound.covered node index hin hlt
    exact ⟨entry, List.mem_append_left _ hentry, hnode⟩
  · rintro - node ⟨wave', hwave', hnode⟩
    obtain rfl : wave' = wave := Option.some.inj (hwave'.symm.trans hwave)
    cases hblocker : plan.blocker? state.settled node with
    | none =>
        left
        exact List.mem_filter.mpr ⟨hnode, Option.isNone_iff_eq_none.mpr hblocker⟩
    | some id =>
        right
        refine ⟨⟨node, .skipped id, none⟩, List.mem_append_right _ ?_, rfl⟩
        exact List.mem_filterMap.mpr ⟨node, hnode, by rw [Plan.skip?, hblocker, Option.map_some]⟩
  · intro node hnode before hleads
    obtain ⟨-, hblocker⟩ := hrunnable node hnode
    exact hsound.hasReturned_of_leads hbuild hblocker (hlocated node hnode) hleads
  · exact hsound.ordered

theorem Effect.isSound (heffect : Effect plan state state') (hlinked : state.IsLinked)
    (hsound : state.IsSound plan (Graph.ofSystems systems tags)) :
    state'.IsSound plan (Graph.ofSystems systems tags) := by
  cases heffect with
  | moved event? hmoves hlog hkeeps => exact hsound.moved hmoves hlog hkeeps
  | opened hphase hwave => exact hsound.opened hbuild hphase hwave
  | closed hphase hhandles => exact hsound.closed hlinked hphase hhandles

/-- Every moment of a tick is sound. -/
theorem Reachable.isSound {conduct : Conduct} {size : Nat} {token : Bool}
    (hreachable : Reachable plan conduct size token state) :
    state.IsLinked ∧ state.IsSound plan (Graph.ofSystems systems tags) := by
  induction hreachable with
  | refl => exact ⟨isLinked_start size token, State.isSound_start plan _ size token⟩
  | tail _ hstep ih =>
      obtain ⟨hlinked, hsound⟩ := ih
      exact ⟨hstep.isLinked hlinked, (hstep.effect hlinked).isSound hbuild hlinked hsound⟩

end Built

def State.IsUnderway (state : State) (node : Nat) : Prop :=
  (∃ bound, state.phase = .inside node bound) ∨
    ∃ job, Worker.running job ∈ state.crew.workers ∧ job.unit = node

theorem mem_underway_iff {node : Nat} :
    node ∈ state.tally.underway ↔ state.IsUnderway node := by
  have hphase : node ∈ state.phase.tally.underway ↔
      ∃ bound, state.phase = .inside node bound := by
    cases state.phase with
    | inside other bound =>
        change node ∈ ({other} : Multiset Nat) ↔ _
        simp [eq_comm]
    | submitting pooled bound => exact iff_of_false (Multiset.notMem_zero _) (by simp)
    | turning bound => exact iff_of_false (Multiset.notMem_zero _) (by simp)
    | _ => exact iff_of_false (Multiset.notMem_zero _) (by simp)
  have hresults : node ∉ (Tally.ofAnswers (state.results : Multiset _)).underway :=
    Multiset.notMem_zero _
  rw [State.tally, Tally.underway_add, Tally.underway_add, Multiset.mem_add, Multiset.mem_add,
    Crew.mem_underway_tally, hphase, or_iff_left hresults, or_comm]
  rfl

/-- At one moment of a tick, no two systems in conflict are underway, no body has begun
before the bodies it waits for have returned, and none has begun twice. -/
structure State.IsRaceFree (state : State) (systems : List (Descriptor β)) (graph : Graph) :
    Prop where
  apart : ∀ first second : Fin systems.length, first ≠ second →
    (systems.get first).conflicts (systems.get second) = true →
      ¬ (state.IsUnderway first ∧ state.IsUnderway second)
  ordered : ∀ edge ∈ graph.edges, ∀ earlier later,
    state.log = earlier ++ .began edge.after :: later → HasReturned earlier edge.before
  once : (begun state.log).Nodup
  underway_iff : ∀ node, state.IsUnderway node ↔
    node ∈ begun state.log ∧ node ∉ ended state.log

/-- However the threads interleave and whatever the bodies do, a tick is free of races. -/
theorem isRaceFree_of_reachable {systems : List (Descriptor β)} {tags : TagOrder}
    {generation : Nat} (hbuild : Plan.build systems tags generation = .ok plan)
    {conduct : Conduct} {size : Nat} {token : Bool}
    (hreachable : Reachable plan conduct size token state) :
    state.IsRaceFree systems (Graph.ofSystems systems tags) := by
  obtain ⟨-, hsound⟩ := hreachable.isSound hbuild
  have hin : ∀ {node}, state.IsUnderway node → plan.IsIn node state.wavesRun := by
    intro node hnode
    apply hsound.located
    apply hsound.mem_runnable
    rw [Tally.total]
    exact Multiset.mem_add.mpr (Or.inl (Multiset.mem_add.mpr
      (Or.inr (mem_underway_iff.mpr hnode))))
  have honce : (begun state.log).Nodup :=
    Multiset.coe_nodup.mp (Multiset.nodup_add.mp hsound.fresh).2.1
  constructor
  · rintro first second hne hconflict ⟨hfirst, hsecond⟩
    exact Plan.index_ne_of_conflicts hbuild hne hconflict (hin hfirst) (hin hsecond) rfl
  · intro edge hedge earlier later hlog
    exact hsound.ordered earlier edge.after later hlog edge.before ⟨edge, hedge, rfl, rfl⟩
  · exact honce
  · intro node
    have hnodup := Multiset.coe_nodup.mpr honce
    have hmem : node ∈ (begun state.log : Multiset Nat) ↔
        node ∈ (ended state.log : Multiset Nat) ∨ state.IsUnderway node := by
      rw [hsound.balance, Multiset.mem_add, mem_underway_iff]
    rw [hsound.balance, Multiset.nodup_add] at hnodup
    rw [Multiset.mem_coe, Multiset.mem_coe] at hmem
    constructor
    · intro hnode
      refine ⟨hmem.mpr (Or.inr hnode), fun hended => ?_⟩
      exact Multiset.disjoint_left.mp hnodup.2.2 hended (mem_underway_iff.mpr hnode)
    · rintro ⟨hbegun, hnot⟩
      exact (hmem.mp hbegun).resolve_left hnot

/-- A system for the coordinator, one for a worker, and one that waits for both. -/
def crowd : List (Descriptor Unit) :=
  [(((Descriptor.ofBody "draw" ()).withId ⟨1⟩).writing ⟨6⟩).mainThread,
    ((Descriptor.ofBody "move" ()).withId ⟨2⟩).writing ⟨7⟩,
    (((Descriptor.ofBody "save" ()).withId ⟨3⟩).reading ⟨6⟩).reading ⟨7⟩]

/-- The coordinator and the only worker are inside bodies at the same time, without a race. -/
theorem isRaceFree_of_reachable_crowd :
    ∃ plan state, Plan.build crowd TagOrder.empty 1 = .ok plan ∧
      Reachable plan ⟨fun _ _ _ => True, True⟩ 1 false state ∧
      (state.IsUnderway 0 ∧ state.IsUnderway 1) ∧
      state.IsRaceFree crowd (Graph.ofSystems crowd TagOrder.empty) := by
  have hlayout : (Plan.build crowd TagOrder.empty 1).toOption.map
      (fun plan => (plan.waves.map Wave.nodes, [0, 1].map plan.isBound)) =
        some ([[0, 1], [2]], [true, false]) := by
    cbv
  cases hbuild : Plan.build crowd TagOrder.empty 1 with
  | error dependency =>
      rw [hbuild] at hlayout
      cases hlayout
  | ok plan =>
      rw [hbuild] at hlayout
      obtain ⟨hnodes, hbound⟩ := Prod.mk.inj (Option.some.inj hlayout)
      obtain ⟨wave, hwave, hwaveNodes⟩ : ∃ wave, plan.waves[0]? = some wave ∧
          wave.nodes = [0, 1] := by
        apply Option.map_eq_some_iff.mp
        rw [← List.getElem?_map, hnodes]
        rfl
      have hopened : ((State.start 1 false).opened plan wave.nodes).phase =
          .submitting [1] [0] := by
        have hfree : ∀ node, plan.blocker? [] node = none := by
          intro node
          rw [Plan.blocker?]
          cases plan.systems[node]? with
          | none => rfl
          | some system => exact List.findSome?_eq_none_iff.mpr fun _ _ => rfl
        simp only [List.map_cons, List.map_nil, List.cons.injEq, and_true] at hbound
        simp [State.opened, Phase.opening, State.start, hwaveNodes, hfree, hbound]
      have halone : ∀ worker : Worker Nat, [worker] = [] ++ worker :: [] := fun _ => rfl
      have hreachable : Reachable plan ⟨fun _ _ _ => True, True⟩ 1 false _ :=
        ((((((Relation.ReflTransGen.refl.tail (.start rfl hwave rfl)).tail
          (.hand hopened)).tail (.turn rfl)).tail (.enter rfl)).tail
          (.work (.take rfl (halone .idle)))).tail
          (.work (.begin (halone (.holding _)))))
      exact ⟨plan, _, rfl, hreachable, ⟨Or.inl ⟨[], rfl⟩,
        Or.inr ⟨⟨0, 1⟩, List.mem_singleton_self _, rfl⟩⟩, isRaceFree_of_reachable hbuild hreachable⟩

end Interleaving

end TickWaves
