import TickWaves.Proofs.Tick.Standing

/-!
# A tick does what its systems do one by one

If the bodies keep to what their systems declare, a tick that is not cancelled leaves the
same store and the same statuses in whatever order the members of each wave run, and so
does running the systems one by one in any order that keeps the constraints
(`exists_runsAlike_of_build`).  Two such orders lead to the same standing because a system
may be moved in front of all those that no constraint puts before it
(`foldl_eq_of_perm_of_comm`).
-/

namespace TickWaves

universe u v

section Exchange

variable {α : Type*} {ι : Type*} {f : α → ι → α}

theorem foldl_append_cons_eq {element : ι} {left right : List ι}
    (hcomm : ∀ other ∈ left, ∀ state, f (f state other) element = f (f state element) other)
    (state : α) :
    (left ++ element :: right).foldl f state = (left ++ right).foldl f (f state element) := by
  induction left generalizing state with
  | nil => rfl
  | cons head left ih =>
      calc
        (head :: left ++ element :: right).foldl f state =
            (left ++ element :: right).foldl f (f state head) := rfl
        _ = (left ++ right).foldl f (f (f state head) element) :=
          ih (fun other hother => hcomm other (List.mem_cons_of_mem _ hother)) _
        _ = (left ++ right).foldl f (f (f state element) head) := by
          rw [hcomm head List.mem_cons_self]
        _ = (head :: left ++ right).foldl f (f state element) := rfl

/-- Two orders of the same steps that both keep to a relation lead to the same state if
unrelated steps commute. -/
theorem foldl_eq_of_perm_of_comm {R : ι → ι → Prop} {left right : List ι}
    (hcomm : ∀ first ∈ left, ∀ second ∈ left, ¬ R first second → ¬ R second first →
      ∀ state, f (f state first) second = f (f state second) first)
    (hperm : left.Perm right) (hleft : left.Pairwise fun earlier later => ¬ R later earlier)
    (hright : right.Pairwise fun earlier later => ¬ R later earlier) (state : α) :
    left.foldl f state = right.foldl f state := by
  induction left generalizing right state with
  | nil => rw [List.nil_perm.mp hperm]
  | cons head left ih =>
      obtain ⟨front, back, rfl⟩ := List.append_of_mem (hperm.mem_iff.mp List.mem_cons_self)
      have hrest : left.Perm (front ++ back) :=
        (hperm.trans List.perm_middle).cons_inv
      rw [List.pairwise_cons] at hleft
      have hfront : ∀ other ∈ front, ∀ state,
          f (f state other) head = f (f state head) other := by
        intro other hother
        have hmem : other ∈ left := hrest.mem_iff.mpr (List.mem_append_left _ hother)
        have hnot : ¬ R head other :=
          (List.pairwise_append.mp hright).2.2 other hother head List.mem_cons_self
        exact hcomm other (List.mem_cons_of_mem _ hmem) head List.mem_cons_self
          (hleft.1 other hmem) hnot
      have hright' : (front ++ back).Pairwise fun earlier later => ¬ R later earlier :=
        hright.sublist (List.Sublist.append_left (List.sublist_cons_self _ _) _)
      have hcomm' : ∀ first ∈ left, ∀ second ∈ left, ¬ R first second → ¬ R second first →
          ∀ state, f (f state first) second = f (f state second) first :=
        fun first hfirst second hsecond =>
          hcomm first (List.mem_cons_of_mem _ hfirst) second (List.mem_cons_of_mem _ hsecond)
      rw [foldl_append_cons_eq hfront, List.foldl_cons]
      exact ih hcomm' hrest hleft.2 hright' _

end Exchange

/-- All positions in an order that keeps every constraint. -/
structure Graph.IsLinearOrder (graph : Graph) (order : List Nat) : Prop where
  perm : order.Perm (List.range graph.size)
  ascends : ∀ edge ∈ graph.edges, order.idxOf edge.before < order.idxOf edge.after

theorem Graph.IsLinearOrder.pairwise {graph : Graph} {order : List Nat}
    (horder : graph.IsLinearOrder order) :
    order.Pairwise fun earlier later => ¬ graph.Leads later earlier := by
  have hnodup : order.Nodup := horder.perm.nodup_iff.mpr List.nodup_range
  rw [List.pairwise_iff_getElem]
  rintro first second hfirst hsecond hlt ⟨edge, hedge, hbefore, hafter⟩
  have hascends := horder.ascends edge hedge
  rw [hbefore, hafter, hnodup.idxOf_getElem, hnodup.idxOf_getElem] at hascends
  omega

theorem Graph.IsLinearOrder.isIndependent_singleton {graph : Graph} {order : List Nat}
    (horder : graph.IsLinearOrder order) (node : Nat) : graph.IsIndependent [node] := by
  intro before hbefore after hafter hleads
  rw [List.mem_singleton.mp hbefore, List.mem_singleton.mp hafter] at hleads
  obtain ⟨edge, hedge, hbefore, hafter⟩ := hleads
  have hascends := horder.ascends edge hedge
  rw [hbefore, hafter] at hascends
  exact Nat.lt_irrefl _ hascends

/-- What a report says of a system, apart from its name, its wave and its run time. -/
def Outcome.verdict (outcome : Outcome) : SystemId × Status := (outcome.id, outcome.status)

namespace Plan

variable {β : Type u} {ν : Type v}

def verdictsBy (plan : Plan β) (fates : Nat → Option Status) : List (SystemId × Status) :=
  plan.waves.flatMap fun wave => (plan.systemsAt wave.nodes).map fun (node, system) =>
    (system.id, (fates node).getD .cancelled)

theorem map_verdict_outcomes (plan : Plan β) (settled : List Settled) :
    (plan.outcomes settled).map Outcome.verdict = plan.verdictsBy (Settled.fates settled) := by
  rw [outcomes, List.map_flatMap, verdictsBy]
  conv_rhs => rw [← List.zipIdx_map_fst 0 plan.waves, List.flatMap_map]
  apply List.flatMap_congr
  intro entry _
  rw [List.map_map]
  rfl

theorem isIn_of_forall₂_perm {plan : Plan β} {orders : List (List Nat)}
    (horders : List.Forall₂ (fun order wave => order.Perm wave.nodes) orders plan.waves)
    {index : Nat} (hindex : index < orders.length) {node : Nat} (hnode : node ∈ orders[index]) :
    plan.IsIn node index := by
  have hwave : index < plan.waves.length := horders.length_eq ▸ hindex
  refine ⟨plan.waves[index], List.getElem?_eq_getElem hwave, ?_⟩
  have hperm := List.Forall₂.get horders hindex hwave
  exact hperm.mem_iff.mp hnode

theorem ends_of_eq_ofSettled (plan : Plan β) {settled : List Settled}
    {workspace : Workspace (Store ν)} {standing : Standing ν}
    (heq : standing = .ofSettled settled workspace) :
    workspace.shared = standing.store ∧
      (plan.outcomes settled).map Outcome.verdict = plan.verdictsBy standing.fates := by
  rw [heq]
  exact ⟨rfl, map_verdict_outcomes plan settled⟩

variable [Behaviour β (Store ν)]

/-- A store and verdicts are what every tick that is not cancelled ends with, whatever pool
it has; what it ends with in any order of the members of each wave; and what running the
systems one by one ends with, in any order that keeps the constraints. -/
structure RunsAlike (plan : Plan β) (graph : Graph) (context : TickContext)
    (store last : Store ν) (verdicts : List (SystemId × Status)) : Prop where
  tick : ∀ pool halt profiler, pool ≠ .closed →
    (plan.execute pool context halt ⟨store, profiler⟩).1.isCancelled = false →
      (plan.execute pool context halt ⟨store, profiler⟩).2.shared = last ∧
        (plan.execute pool context halt ⟨store, profiler⟩).1.outcomes.map Outcome.verdict =
          verdicts
  waves : ∀ lanes orders profiler,
    List.Forall₂ (fun order wave => order.Perm wave.nodes) orders plan.waves →
      (plan.runRounds context lanes orders [] ⟨store, profiler⟩).2.shared = last ∧
        (plan.outcomes (plan.runRounds context lanes orders [] ⟨store, profiler⟩).1).map
          Outcome.verdict = verdicts
  single : ∀ lanes order profiler, graph.IsLinearOrder order →
    (plan.runRounds context lanes (order.map fun node => [node]) []
        ⟨store, profiler⟩).2.shared = last ∧
      (plan.outcomes (plan.runRounds context lanes (order.map fun node => [node]) []
        ⟨store, profiler⟩).1).map Outcome.verdict = verdicts

section Built

variable {systems : List (Descriptor β)} {tags : TagOrder} {generation : Nat}
variable {plan : Plan β}
variable (hbuild : build systems tags generation = .ok plan)
include hbuild

omit [Behaviour β (Store ν)] in
theorem isIndependent_of_forall₂_perm {orders : List (List Nat)}
    (horders : List.Forall₂ (fun order wave => order.Perm wave.nodes) orders plan.waves)
    {order : List Nat} (horder : order ∈ orders) :
    (Graph.ofSystems systems tags).IsIndependent order := by
  obtain ⟨index, hindex, rfl⟩ := List.mem_iff_getElem.mp horder
  intro before hbefore after hafter hleads
  have hlt := index_lt_of_leads hbuild hleads (isIn_of_forall₂_perm horders hindex hbefore)
    (isIn_of_forall₂_perm horders hindex hafter)
  exact Nat.lt_irrefl index hlt

omit [Behaviour β (Store ν)] in
/-- The waves, with their members in any order, keep the constraints. -/
theorem pairwise_flatten_of_build {orders : List (List Nat)}
    (horders : List.Forall₂ (fun order wave => order.Perm wave.nodes) orders plan.waves) :
    orders.flatten.Pairwise fun earlier later =>
      ¬ (Graph.ofSystems systems tags).Leads later earlier := by
  rw [List.pairwise_flatten]
  constructor
  · intro order horder
    apply List.pairwise_of_forall_mem_list
    intro earlier hearlier later hlater
    exact isIndependent_of_forall₂_perm hbuild horders horder later hlater earlier hearlier
  · rw [List.pairwise_iff_getElem]
    intro first second hfirst hsecond hlt earlier hearlier later hlater hleads
    have hgt := index_lt_of_leads hbuild hleads (isIn_of_forall₂_perm horders hsecond hlater)
      (isIn_of_forall₂_perm horders hfirst hearlier)
    omega

variable {context : TickContext}
variable (hkeeps : ∀ descriptor ∈ systems, descriptor.KeepsTo ν context)
include hkeeps

theorem foldl_advance_runRounds (lanes : Nat → Lane) {orders : List (List Nat)}
    (hfree : ∀ order ∈ orders, (Graph.ofSystems systems tags).IsIndependent order)
    (hbound : ∀ order ∈ orders, ∀ node ∈ order, node < systems.length)
    (settled : List Settled) (workspace : Workspace (Store ν)) :
    orders.flatten.foldl (plan.advance context) (.ofSettled settled workspace) =
      .ofSettled (plan.runRounds context lanes orders settled workspace).1
        (plan.runRounds context lanes orders settled workspace).2 := by
  induction orders generalizing settled workspace with
  | nil => rfl
  | cons order orders ih =>
      rw [List.flatten_cons, List.foldl_append, runRounds,
        foldl_advance_runRound hbuild hkeeps lanes (hfree order List.mem_cons_self)
          (hbound order List.mem_cons_self)]
      exact ih (fun other hother => hfree other (List.mem_cons_of_mem _ hother))
        (fun other hother => hbound other (List.mem_cons_of_mem _ hother)) _ _

/-- Waves that no cancellation interrupts advance over all their members. -/
theorem foldl_advance_runWaves {pool : Pool} {lane : Lane} (hlane : pool.lane? = some lane)
    (halt : Nat → Store ν → Bool) {waves : List Wave} (hwaves : ∀ wave ∈ waves, wave ∈ plan.waves)
    (index : Nat) (settled : List Settled) (workspace : Workspace (Store ν))
    (hwhole : (plan.runWaves pool context halt waves index settled workspace).isCancelled =
      false) :
    (waves.flatMap Wave.nodes).foldl (plan.advance context) (.ofSettled settled workspace) =
      .ofSettled (plan.runWaves pool context halt waves index settled workspace).settled
        (plan.runWaves pool context halt waves index settled workspace).workspace := by
  induction waves generalizing index settled workspace with
  | nil => rfl
  | cons wave waves ih =>
      have hwave := hwaves wave List.mem_cons_self
      have hbound : ∀ node ∈ wave.nodes, node < systems.length := by
        obtain ⟨place, hplace⟩ := List.getElem?_of_mem hwave
        intro node hnode
        exact IsIn.lt_length hbuild ⟨wave, hplace, hnode⟩
      rw [runWaves] at hwhole ⊢
      by_cases hhalt : halt index workspace.shared = true
      · rw [if_pos hhalt] at hwhole
        cases hwhole
      · rw [if_neg hhalt] at hwhole ⊢
        rw [List.flatMap_cons, List.foldl_append,
          foldl_advance_runWave hbuild hkeeps hlane (nodup_nodes_of_build hbuild hwave)
            (isIndependent_nodes_of_build hbuild hwave) hbound]
        exact ih (fun other hother => hwaves other (List.mem_cons_of_mem _ hother)) _ _ _ hwhole

/-- All orders that keep the constraints lead to the same standing. -/
theorem foldl_advance_eq_of_pairwise {order : List Nat}
    (hperm : order.Perm (List.range systems.length))
    (hpairwise : order.Pairwise fun earlier later =>
      ¬ (Graph.ofSystems systems tags).Leads later earlier) (standing : Standing ν) :
    order.foldl (plan.advance context) standing =
      (plan.waves.flatMap Wave.nodes).foldl (plan.advance context) standing := by
  have hbound : ∀ node ∈ order, node < systems.length := fun node hnode =>
    List.mem_range.mp (hperm.mem_iff.mp hnode)
  have hwaves : (plan.waves.flatMap Wave.nodes).Pairwise fun earlier later =>
      ¬ (Graph.ofSystems systems tags).Leads later earlier := by
    apply pairwise_flatten_of_build hbuild
    rw [List.forall₂_map_left_iff, List.forall₂_same]
    intro wave _
    exact List.Perm.refl _
  apply foldl_eq_of_perm_of_comm _ (hperm.trans (flatMap_nodes_perm_of_build hbuild).symm)
    hpairwise hwaves
  intro first hfirst second hsecond hbefore hafter standing
  by_cases heq : first = second
  · rw [heq]
  · exact advance_comm hbuild hkeeps (hbound first hfirst) (hbound second hsecond) heq hbefore
      hafter standing

/-- Rounds that keep the constraints lead to where the waves lead. -/
theorem foldl_advance_eq_runRounds (lanes : Nat → Lane) {orders : List (List Nat)}
    (hperm : orders.flatten.Perm (List.range systems.length))
    (hfree : ∀ order ∈ orders, (Graph.ofSystems systems tags).IsIndependent order)
    (hpairwise : orders.flatten.Pairwise fun earlier later =>
      ¬ (Graph.ofSystems systems tags).Leads later earlier)
    (workspace : Workspace (Store ν)) :
    (plan.waves.flatMap Wave.nodes).foldl (plan.advance context) (.ofSettled [] workspace) =
      .ofSettled (plan.runRounds context lanes orders [] workspace).1
        (plan.runRounds context lanes orders [] workspace).2 := by
  have hbound : ∀ order ∈ orders, ∀ node ∈ order, node < systems.length := by
    intro order horder node hnode
    exact List.mem_range.mp (hperm.mem_iff.mp (List.mem_flatten_of_mem horder hnode))
  calc
    (plan.waves.flatMap Wave.nodes).foldl (plan.advance context) (.ofSettled [] workspace) =
        orders.flatten.foldl (plan.advance context) (.ofSettled [] workspace) :=
      (foldl_advance_eq_of_pairwise hbuild hkeeps hperm hpairwise _).symm
    _ = .ofSettled (plan.runRounds context lanes orders [] workspace).1
          (plan.runRounds context lanes orders [] workspace).2 :=
      foldl_advance_runRounds hbuild hkeeps lanes hfree hbound [] workspace

end Built

/-- A tick of systems that keep to what they declare ends in one way, whatever the order
within the waves, and running the systems one by one ends in the same way. -/
theorem exists_runsAlike_of_build {systems : List (Descriptor β)} {tags : TagOrder}
    {generation : Nat} {plan : Plan β} (hbuild : build systems tags generation = .ok plan)
    {context : TickContext} (hkeeps : ∀ descriptor ∈ systems, descriptor.KeepsTo ν context)
    (store : Store ν) :
    ∃ last verdicts,
      plan.RunsAlike (Graph.ofSystems systems tags) context store last verdicts := by
  let start : Standing ν := ⟨fun _ => none, store⟩
  let final := (plan.waves.flatMap Wave.nodes).foldl (plan.advance context) start
  refine ⟨final.store, plan.verdictsBy final.fates, ?_, ?_, ?_⟩
  · intro pool halt profiler hopen hwhole
    obtain ⟨lane, hlane⟩ : ∃ lane, pool.lane? = some lane := by
      cases pool with
      | inline => exact ⟨_, rfl⟩
      | threads requested label => exact ⟨_, rfl⟩
      | closed => exact absurd rfl hopen
    apply ends_of_eq_ofSettled
    exact foldl_advance_runWaves hbuild hkeeps hlane halt (fun _ => id) 0 [] ⟨store, profiler⟩
      hwhole
  · intro lanes orders profiler horders
    apply ends_of_eq_ofSettled
    have hperm : orders.flatten.Perm (plan.waves.flatMap Wave.nodes) := by
      rw [List.flatMap_def]
      apply List.Perm.flatten_congr
      rw [List.forall₂_map_right_iff]
      exact horders
    refine foldl_advance_eq_runRounds hbuild hkeeps lanes ?_ ?_ ?_ ⟨store, profiler⟩
    · exact hperm.trans (flatMap_nodes_perm_of_build hbuild)
    · intro order horder
      exact isIndependent_of_forall₂_perm hbuild horders horder
    · exact pairwise_flatten_of_build hbuild horders
  · intro lanes order profiler horder
    apply ends_of_eq_ofSettled
    have hflat : (order.map fun node => [node]).flatten = order := by
      rw [← List.flatMap_def, List.flatMap_singleton']
    have hperm := horder.perm
    rw [Graph.size_ofSystems] at hperm
    refine foldl_advance_eq_runRounds hbuild hkeeps lanes ?_ ?_ ?_ ⟨store, profiler⟩
    · rw [hflat]
      exact hperm
    · intro round hround
      obtain ⟨node, -, rfl⟩ := List.mem_map.mp hround
      exact horder.isIndependent_singleton node
    · rw [hflat]
      exact horder.pairwise

/-- A body that copies the value of one component type to another one, or fails. -/
inductive Chore
  | copy (source target : ComponentId)
  | refuse (reason : String)

instance : Behaviour Chore (Store Nat) where
  run chore _ _ store :=
    match chore with
    | .copy source target => ⟨.done, Function.update store target (store source), .zero⟩
    | .refuse reason => ⟨.failed [reason], store, .zero⟩

theorem keepsTo_copy {descriptor : Descriptor Chore} {source target : ComponentId}
    (hbody : descriptor.body = .copy source target)
    (hsource : descriptor.access.accesses source = true)
    (htarget : target ∈ descriptor.access.writes) (context : TickContext) :
    descriptor.KeepsTo Nat context where
  frame lane store id hwrites := by
    have hne : id ≠ target := by
      rintro rfl
      exact hwrites htarget
    rw [hbody]
    exact Function.update_of_ne hne _ _
  ending _ _ _ _ _ := by
    rw [hbody]
    rfl
  effect lane lane' store store' hagrees id hwrites := by
    have hsame := hagrees id (Access.accesses_eq_true_iff.mpr (Or.inr hwrites))
    rw [hbody]
    change Function.update store target (store source) id =
      Function.update store' target (store' source) id
    rw [hagrees source hsource, Function.update_apply, Function.update_apply, hsame]

theorem keepsTo_refuse {descriptor : Descriptor Chore} {reason : String}
    (hbody : descriptor.body = .refuse reason) (context : TickContext) :
    descriptor.KeepsTo Nat context where
  frame _ _ _ _ := by
    rw [hbody]
    rfl
  ending _ _ _ _ _ := by
    rw [hbody]
    rfl
  effect _ _ _ _ hagrees id hwrites := by
    rw [hbody]
    exact hagrees id (Access.accesses_eq_true_iff.mpr (Or.inr hwrites))

/-- A loader that fails, a reader that is skipped for it, and two more that share their
waves. -/
def chores : List (Descriptor Chore) :=
  [((Descriptor.ofBody "load" (.refuse "no disk")).withId ⟨1⟩).writing ⟨1⟩,
    (((Descriptor.ofBody "show" (.copy ⟨1⟩ ⟨2⟩)).withId ⟨2⟩).reading ⟨1⟩).writing ⟨2⟩,
    (((Descriptor.ofBody "move" (.copy ⟨3⟩ ⟨4⟩)).withId ⟨3⟩).reading ⟨3⟩).writing ⟨4⟩,
    ((((Descriptor.ofBody "draw" (.copy ⟨4⟩ ⟨5⟩)).withId ⟨4⟩).reading ⟨4⟩).writing
      ⟨5⟩).mainThread]

def numberedStore : Store Nat := fun id => id.word.toNat

/-- A tick of the chores on two workers is not cancelled.  It and all the other ways to run them
copy the third value to the fourth place and from there to the fifth one, and nothing else. -/
theorem exists_runsAlike_of_build_chores :
    ∃ plan, build chores TagOrder.empty 1 = .ok plan ∧
      (∀ descriptor ∈ chores, descriptor.KeepsTo Nat ⟨1, 0⟩) ∧
      (plan.execute (.threads 2 "demo") ⟨1, 0⟩ (fun _ _ => false)
        ⟨numberedStore, Profiler.ofSize 4⟩).1.isCancelled = false ∧
      plan.RunsAlike (Graph.ofSystems chores TagOrder.empty) ⟨1, 0⟩ numberedStore
        (Function.update (Function.update numberedStore ⟨4⟩ 3) ⟨5⟩ 3)
        [(⟨1⟩, .failed (.failed "no disk")), (⟨3⟩, .completed), (⟨2⟩, .skipped ⟨1⟩),
          (⟨4⟩, .completed)] := by
  have hkeeps : ∀ descriptor ∈ chores, descriptor.KeepsTo Nat ⟨1, 0⟩ := by
    simp only [chores, List.forall_mem_cons, List.not_mem_nil, false_imp_iff, implies_true,
      and_true]
    refine ⟨keepsTo_refuse rfl _, keepsTo_copy rfl ?_ ?_ _, keepsTo_copy rfl ?_ ?_ _,
      keepsTo_copy rfl ?_ ?_ _⟩ <;> decide
  have htick : (build chores TagOrder.empty 1).toOption.map (fun plan =>
      let tick := plan.execute (.threads 2 "demo") ⟨1, 0⟩ (fun _ _ => false)
        ⟨numberedStore, Profiler.ofSize 4⟩
      (tick.1.isCancelled, tick.2.shared, tick.1.outcomes.map Outcome.verdict)) =
        some (false, Function.update (Function.update numberedStore ⟨4⟩ 3) ⟨5⟩ 3,
          [(⟨1⟩, .failed (.failed "no disk")), (⟨3⟩, .completed), (⟨2⟩, .skipped ⟨1⟩),
            (⟨4⟩, .completed)]) := by
    -- Stores are functions, so this is not for `decide`: both sides are run.
    with_unfolding_all rfl
  cases hbuild : build chores TagOrder.empty 1 with
  | error dependency =>
      rw [hbuild] at htick
      cases htick
  | ok plan =>
      rw [hbuild] at htick
      obtain ⟨hwhole, hends⟩ := Prod.mk.inj (Option.some.inj htick)
      obtain ⟨hstore, hverdicts⟩ := Prod.mk.inj hends
      obtain ⟨last, verdicts, hruns⟩ := exists_runsAlike_of_build hbuild hkeeps numberedStore
      obtain ⟨hlast, hreport⟩ := hruns.tick (.threads 2 "demo") (fun _ _ => false)
        (Profiler.ofSize 4) nofun hwhole
      rw [← hlast, ← hreport, hstore, hverdicts] at hruns
      exact ⟨plan, rfl, hkeeps, hwhole, hruns⟩

end Plan

end TickWaves
