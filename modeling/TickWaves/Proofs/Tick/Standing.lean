import TickWaves.Proofs.Plan.Layout
import TickWaves.Proofs.System.Footprint
import TickWaves.Proofs.Tick.Rounds

/-!
# Where a tick stands

What the rest of a tick does depends on what is decided about each position and on what
the systems share.  On these two alone, one system after the other is skipped or run
(`Plan.advance`).  A wave, however its members are put on threads, advances over its
members (`foldl_advance_runWave`, `foldl_advance_runRound`), because systems that no
constraint joins may be exchanged (`advance_comm`).
-/

namespace TickWaves

universe u v

def Settled.fates (settled : List Settled) (node : Nat) : Option Status :=
  (Settled.find? settled node).map Settled.status

theorem Settled.fates_append (settled entries : List Settled) (node : Nat) :
    Settled.fates (settled ++ entries) node =
      (Settled.fates settled node).or (Settled.fates entries node) := by
  rw [Settled.fates, Settled.find?, List.find?_append, Option.map_or]
  rfl

theorem Settled.fates_eq_none {settled : List Settled} {node : Nat}
    (hnone : ∀ entry ∈ settled, entry.node ≠ node) : Settled.fates settled node = none := by
  rw [Settled.fates, Settled.find?, List.find?_eq_none.mpr, Option.map_none]
  intro entry hentry heq
  exact hnone entry hentry (beq_iff_eq.mp heq)

theorem Settled.fates_concat (settled : List Settled) (entry : Settled) (node : Nat) :
    Settled.fates (settled ++ [entry]) node =
      (Settled.fates settled node).or (if entry.node = node then some entry.status else none) := by
  rw [Settled.fates_append]
  congr 1
  by_cases heq : entry.node = node
  · simp [Settled.fates, Settled.find?, heq]
  · simp [Settled.fates, Settled.find?, heq]

/-- What is decided about each position, and what the systems share. -/
@[ext]
structure Standing (ν : Type v) where
  fates : Nat → Option Status
  /-- What the systems share. -/
  store : Store ν

namespace Standing

variable {ν : Type v}

/-- The part of a workspace and the decisions so far that the rest of a tick depends on. -/
def ofSettled (settled : List Settled) (workspace : Workspace (Store ν)) : Standing ν :=
  ⟨Settled.fates settled, workspace.shared⟩

/-- Decides about a position, unless that was done before. -/
def settle (standing : Standing ν) (node : Nat) (status : Status) (store : Store ν) :
    Standing ν where
  fates other := (standing.fates other).or (if node = other then some status else none)
  store := store

@[simp]
theorem store_settle (standing : Standing ν) (node : Nat) (status : Status)
    (store : Store ν) : (standing.settle node status store).store = store :=
  rfl

theorem settle_comm (standing : Standing ν) {first second : Nat} (hne : first ≠ second)
    (status status' : Status) (store store' last : Store ν) :
    (standing.settle first status store).settle second status' last =
      (standing.settle second status' store').settle first status last := by
  apply Standing.ext
  · funext other
    simp only [settle, Option.or_assoc]
    by_cases hfirst : first = other
    · have hsecond : ¬ second = other := fun heq => hne (hfirst.trans heq.symm)
      simp [hfirst, hsecond]
    · simp [hfirst]
  · rfl

theorem ofSettled_concat (settled : List Settled) (entry : Settled)
    (workspace workspace' : Workspace (Store ν)) :
    ofSettled (settled ++ [entry]) workspace' =
      (ofSettled settled workspace).settle entry.node entry.status workspace'.shared := by
  apply Standing.ext
  · funext node
    exact Settled.fates_concat settled entry node
  · rfl

end Standing

theorem findSome?_eq_of_forall {α γ : Type*} {f g : α → Option γ} {elements : List α}
    (heq : ∀ element ∈ elements, f element = g element) :
    elements.findSome? f = elements.findSome? g := by
  induction elements with
  | nil => rfl
  | cons head rest ih =>
      rw [List.findSome?_cons, List.findSome?_cons, heq head List.mem_cons_self,
        ih fun element helement => heq element (List.mem_cons_of_mem _ helement)]

namespace Plan

variable {β : Type u} {ν : Type v}

def blockerBy (plan : Plan β) (fates : Nat → Option Status) (node : Nat) :
    Option SystemId :=
  match plan.systems[node]? with
  | none => none
  | some system => system.predecessors.findSome? fun predecessor =>
      match fates predecessor with
      | some (.failed _) => plan.systems[predecessor]?.map PlannedSystem.id
      | some (.skipped blockedBy) => some blockedBy
      | _ => none

theorem blocker?_eq_blockerBy (plan : Plan β) (settled : List Settled) (node : Nat) :
    plan.blocker? settled node = plan.blockerBy (Settled.fates settled) node :=
  rfl

/-- Skips the system at a position, or runs it. -/
def advance [Behaviour β (Store ν)] (plan : Plan β) (context : TickContext)
    (standing : Standing ν) (node : Nat) : Standing ν :=
  match plan.blockerBy standing.fates node, (plan.systems[node]?).bind PlannedSystem.body? with
  | some id, _ => standing.settle node (.skipped id) standing.store
  | none, none => standing
  | none, some body =>
      let reply := Behaviour.run body context .coordinator standing.store
      standing.settle node (statusOf reply.ending.result) reply.shared

theorem runOn_work [Behaviour β (Store ν)] {system : PlannedSystem β} {body : β}
    (hbody : system.body? = some body) (context : TickContext) (lane : Lane)
    (workspace : Workspace (Store ν)) :
    ((system.work context).runOn lane workspace).1 =
        (Behaviour.run body context lane workspace.shared).ending.result ∧
      ((system.work context).runOn lane workspace).2.shared =
        (Behaviour.run body context lane workspace.shared).shared := by
  rw [Work.runOn, PlannedSystem.work, hbody]
  cases hending : (Behaviour.run body context lane workspace.shared).ending <;>
    exact ⟨by simp [hending], by simp [hending]⟩

theorem fates_map_settle (plan : Plan β) (profiler : Profiler)
    (results : List (Nat × TaskResult)) (node : Nat) :
    Settled.fates (results.map fun (node, result) => plan.settle profiler node result) node =
      (results.lookup node).map statusOf := by
  induction results with
  | nil => rfl
  | cons entry results ih =>
      rw [Settled.fates, Settled.find?] at ih ⊢
      rw [List.map_cons, List.find?_cons, List.lookup_cons]
      by_cases heq : entry.1 = node
      · simp [settle, heq]
      · have hne : (node == entry.1) = false := beq_false_of_ne (Ne.symm heq)
        have hne' : (entry.1 == node) = false := beq_false_of_ne heq
        simp only [settle, hne, hne']
        exact ih

/-- Systems in conflict are joined by a constraint one way or the other. -/
theorem conflicts_eq_false_of_not_leads {systems : List (Descriptor β)} {tags : TagOrder}
    {first second : Nat} (hlt : first < systems.length) (hlt' : second < systems.length)
    (hne : first ≠ second) (hfirst : ¬ (Graph.ofSystems systems tags).Leads first second)
    (hsecond : ¬ (Graph.ofSystems systems tags).Leads second first) :
    systems[first].conflicts systems[second] = false := by
  rw [Bool.eq_false_iff]
  intro hconflict
  have hne' : (⟨first, hlt⟩ : Fin systems.length) ≠ ⟨second, hlt'⟩ := Fin.ne_of_val_ne hne
  rcases Graph.goesFirst_or_goesFirst systems hne' with hahead | hahead
  · exact hfirst (Graph.leads_conflicting_iff.mpr (Or.inl ⟨hconflict, hahead⟩))
  · rw [Descriptor.conflicts_comm] at hconflict
    exact hsecond (Graph.leads_conflicting_iff.mpr (Or.inl ⟨hconflict, hahead⟩))

section Built

variable {systems : List (Descriptor β)} {tags : TagOrder} {generation : Nat}
variable {plan : Plan β}
variable (hbuild : build systems tags generation = .ok plan)
include hbuild

theorem blockerBy_congr {fates fates' : Nat → Option Status} {node : Nat}
    (hfates : ∀ before, (Graph.ofSystems systems tags).Leads before node →
      fates before = fates' before) :
    plan.blockerBy fates node = plan.blockerBy fates' node := by
  rw [blockerBy, blockerBy]
  rw [getElem?_systems_of_build hbuild]
  cases systems[node]? with
  | none => rfl
  | some descriptor =>
      apply findSome?_eq_of_forall
      intro before hbefore
      rw [hfates before (Graph.mem_predecessors.mp hbefore)]

theorem blockerBy_settle {before after : Nat}
    (hfree : ¬ (Graph.ofSystems systems tags).Leads before after) (standing : Standing ν)
    (status : Status) (store : Store ν) :
    plan.blockerBy (standing.settle before status store).fates after =
      plan.blockerBy standing.fates after := by
  apply blockerBy_congr hbuild
  intro other hother
  have hne : ¬ before = other := by
    rintro rfl
    exact hfree hother
  simp [Standing.settle, hne]

theorem blocker?_append {settled entries : List Settled} {node : Nat}
    (hfree : ∀ entry ∈ entries, ¬ (Graph.ofSystems systems tags).Leads entry.node node) :
    plan.blocker? (settled ++ entries) node = plan.blocker? settled node := by
  apply blockerBy_congr hbuild
  intro before hbefore
  change Settled.fates (settled ++ entries) before = Settled.fates settled before
  have hnone : Settled.fates entries before = none := by
    apply Settled.fates_eq_none
    intro entry hentry heq
    rw [← heq] at hbefore
    exact hfree entry hentry hbefore
  rw [Settled.fates_append, hnone, Option.or_none]

variable [Behaviour β (Store ν)] {context : TickContext} {standing : Standing ν}

omit hbuild in
theorem advance_of_eq_some {node : Nat} {id : SystemId}
    (hblocker : plan.blockerBy standing.fates node = some id) :
    plan.advance context standing node =
      standing.settle node (.skipped id) standing.store := by
  rw [advance, hblocker]

theorem advance_of_eq_none {node : Nat} (hlt : node < systems.length)
    (hblocker : plan.blockerBy standing.fates node = none) :
    plan.advance context standing node =
      let reply := Behaviour.run systems[node].body context .coordinator standing.store
      standing.settle node (statusOf reply.ending.result) reply.shared := by
  rw [advance, hblocker, getElem?_systems_of_build hbuild,
    List.getElem?_eq_getElem hlt]
  rfl

omit hbuild in
theorem advance_ofSettled_of_eq_some {settled : List Settled} {node : Nat} {id : SystemId}
    (hblocker : plan.blocker? settled node = some id) (workspace : Workspace (Store ν)) :
    plan.advance context (.ofSettled settled workspace) node =
      .ofSettled (settled ++ [⟨node, .skipped id, none⟩]) workspace := by
  rw [Standing.ofSettled_concat settled _ workspace]
  exact advance_of_eq_some hblocker

variable (hkeeps : ∀ descriptor ∈ systems, descriptor.KeepsTo ν context)
include hkeeps

theorem advance_ofSettled_of_eq_none {settled : List Settled} {node : Nat}
    {system : PlannedSystem β} (hsystem : plan.systems[node]? = some system)
    (hblocker : plan.blocker? settled node = none) (lane : Lane)
    (workspace : Workspace (Store ν)) (profiler : Profiler) :
    plan.advance context (.ofSettled settled workspace) node =
      .ofSettled
        (settled ++ [plan.settle profiler node
          ((system.work context).runOn lane workspace).1])
        ((system.work context).runOn lane workspace).2 := by
  have hlt : node < systems.length := by
    rw [← length_systems_of_build hbuild]
    exact (List.getElem?_eq_some_iff.mp hsystem).1
  have hbody : system.body? = some systems[node].body := by
    rw [getElem?_systems_of_build hbuild, List.getElem?_eq_getElem hlt] at hsystem
    rw [← Option.some.inj hsystem]
  have hkeep := hkeeps systems[node] (List.getElem_mem hlt)
  obtain ⟨hresult, hshared⟩ := runOn_work hbody context lane workspace
  rw [Standing.ofSettled_concat settled _ workspace, hshared, settle, hresult,
    hkeep.ending_lane lane .coordinator, hkeep.shared_lane lane .coordinator]
  exact advance_of_eq_none hbuild hlt hblocker

/-- Systems that no constraint joins may be exchanged. -/
theorem advance_comm {first second : Nat} (hlt : first < systems.length)
    (hlt' : second < systems.length) (hne : first ≠ second)
    (hfirst : ¬ (Graph.ofSystems systems tags).Leads first second)
    (hsecond : ¬ (Graph.ofSystems systems tags).Leads second first) (standing : Standing ν) :
    plan.advance context (plan.advance context standing first) second =
      plan.advance context (plan.advance context standing second) first := by
  have hclear : systems[first].conflicts systems[second] = false :=
    conflicts_eq_false_of_not_leads hlt hlt' hne hfirst hsecond
  have hleft := hkeeps systems[first] (List.getElem_mem hlt)
  have hright := hkeeps systems[second] (List.getElem_mem hlt')
  have hafter := blockerBy_settle hbuild hfirst standing
  have hbefore := blockerBy_settle hbuild hsecond standing
  cases hone : plan.blockerBy standing.fates first with
  | some id =>
      rw [advance_of_eq_some hone]
      cases htwo : plan.blockerBy standing.fates second with
      | some other =>
          rw [advance_of_eq_some htwo, advance_of_eq_some ((hafter _ _).trans htwo),
            advance_of_eq_some ((hbefore _ _).trans hone)]
          exact Standing.settle_comm standing hne _ _ _ _ _
      | none =>
          rw [advance_of_eq_none hbuild hlt' htwo,
            advance_of_eq_none hbuild hlt' ((hafter _ _).trans htwo),
            advance_of_eq_some ((hbefore _ _).trans hone)]
          exact Standing.settle_comm standing hne _ _ _ _ _
  | none =>
      rw [advance_of_eq_none hbuild hlt hone]
      cases htwo : plan.blockerBy standing.fates second with
      | some other =>
          rw [advance_of_eq_some htwo, advance_of_eq_some ((hafter _ _).trans htwo),
            advance_of_eq_none hbuild hlt ((hbefore _ _).trans hone)]
          exact Standing.settle_comm standing hne _ _ _ _ _
      | none =>
          have hclear' : systems[second].conflicts systems[first] = false := by
            rw [Descriptor.conflicts_comm, hclear]
          rw [advance_of_eq_none hbuild hlt' htwo,
            advance_of_eq_none hbuild hlt' ((hafter _ _).trans htwo),
            advance_of_eq_none hbuild hlt ((hbefore _ _).trans hone)]
          simp only [Standing.store_settle]
          rw [hleft.ending_shared hright hclear, hright.ending_shared hleft hclear',
            hleft.shared_comm hright hclear]
          exact Standing.settle_comm standing hne _ _ _ _ _

/-- Positions that no constraint joins may be taken in any order. -/
theorem foldl_advance_eq_of_perm {nodes order : List Nat} (hperm : nodes.Perm order)
    (hbound : ∀ node ∈ nodes, node < systems.length)
    (hfree : (Graph.ofSystems systems tags).IsIndependent nodes) :
    nodes.foldl (plan.advance context) standing = order.foldl (plan.advance context) standing := by
  apply hperm.foldl_eq'
  intro first hfirst second hsecond standing
  by_cases heq : first = second
  · rw [heq]
  · exact advance_comm hbuild hkeeps (hbound first hfirst) (hbound second hsecond) heq
      (hfree first hfirst second hsecond) (hfree second hsecond first hfirst) standing

omit hkeeps in
/-- Blocked positions are skipped, and nothing else happens. -/
theorem foldl_advance_blocked {nodes : List Nat}
    (hfree : (Graph.ofSystems systems tags).IsIndependent nodes) {settled : List Settled}
    (hblocked : ∀ node ∈ nodes, (plan.blocker? settled node).isSome)
    (workspace : Workspace (Store ν)) :
    nodes.foldl (plan.advance context) (.ofSettled settled workspace) =
      .ofSettled (settled ++ nodes.filterMap (plan.skip? settled)) workspace := by
  induction nodes generalizing settled with
  | nil => rw [List.foldl_nil, List.filterMap_nil, List.append_nil]
  | cons node nodes ih =>
      obtain ⟨id, hid⟩ := Option.isSome_iff_exists.mp (hblocked node List.mem_cons_self)
      let entry : Settled := ⟨node, .skipped id, none⟩
      have hskip : plan.skip? settled node = some entry := by
        rw [skip?, hid, Option.map_some]
      have hsame : ∀ other ∈ nodes,
          plan.blocker? (settled ++ [entry]) other = plan.blocker? settled other := by
        intro other hother
        apply blocker?_append hbuild
        intro found hfound
        rw [List.mem_singleton.mp hfound]
        exact hfree node List.mem_cons_self other (List.mem_cons_of_mem _ hother)
      have hskips : nodes.filterMap (plan.skip? (settled ++ [entry])) =
          nodes.filterMap (plan.skip? settled) := by
        apply List.filterMap_congr
        intro other hother
        rw [skip?, skip?, hsame other hother]
      have hblocked' : ∀ other ∈ nodes,
          (plan.blocker? (settled ++ [entry]) other).isSome := by
        intro other hother
        rw [hsame other hother]
        exact hblocked other (List.mem_cons_of_mem _ hother)
      calc
        (node :: nodes).foldl (plan.advance context) (.ofSettled settled workspace) =
            nodes.foldl (plan.advance context) (.ofSettled (settled ++ [entry]) workspace) := by
          rw [List.foldl_cons, advance_ofSettled_of_eq_some hid]
        _ = .ofSettled (settled ++ [entry] ++
              nodes.filterMap (plan.skip? (settled ++ [entry]))) workspace :=
          ih (hfree.mono (List.subset_cons_self _ _)) hblocked'
        _ = .ofSettled (settled ++ (node :: nodes).filterMap (plan.skip? settled))
              workspace := by
          rw [hskips, List.filterMap_cons_some hskip, ← List.append_cons]

/-- Positions that are not blocked run one after the other. -/
theorem foldl_advance_runEach {order : List Nat}
    (hfree : (Graph.ofSystems systems tags).IsIndependent order)
    (hbound : ∀ node ∈ order, node < systems.length) (lanes : Nat → Lane)
    {settled : List Settled} (hrunnable : ∀ node ∈ order, plan.blocker? settled node = none)
    (workspace : Workspace (Store ν)) (profiler : Profiler) :
    order.foldl (plan.advance context) (.ofSettled settled workspace) =
      .ofSettled (settled ++ (plan.runEach context lanes order workspace).1.map
          fun (node, result) => plan.settle profiler node result)
        (plan.runEach context lanes order workspace).2 := by
  induction order generalizing settled workspace with
  | nil => rw [List.foldl_nil, runEach, List.map_nil, List.append_nil]
  | cons node order ih =>
      obtain ⟨system, hsystem⟩ : ∃ system, plan.systems[node]? = some system := by
        rw [getElem?_systems_of_build hbuild,
          List.getElem?_eq_getElem (hbound node List.mem_cons_self)]
        exact ⟨_, rfl⟩
      have hblocker := hrunnable node List.mem_cons_self
      have hrunnable' : ∀ entry : Settled, entry.node = node →
          ∀ other ∈ order, plan.blocker? (settled ++ [entry]) other = none := by
        intro entry hentry other hother
        rw [blocker?_append hbuild, hrunnable other (List.mem_cons_of_mem _ hother)]
        intro found hfound
        rw [List.mem_singleton.mp hfound, hentry]
        exact hfree node List.mem_cons_self other (List.mem_cons_of_mem _ hother)
      have hstep := advance_ofSettled_of_eq_none hbuild hkeeps hsystem hblocker (lanes node)
        workspace profiler
      rw [List.foldl_cons, hstep, runEach_cons hsystem]
      dsimp only
      rw [ih (hfree.mono (List.subset_cons_self _ _))
        (fun other hother => hbound other (List.mem_cons_of_mem _ hother))
        (hrunnable' _ rfl), List.map_cons, List.append_assoc]
      rfl

/-- A wave advances over its members, in whatever order the unblocked ones run. -/
theorem foldl_advance_wave {nodes order : List Nat}
    (hfree : (Graph.ofSystems systems tags).IsIndependent nodes)
    (hbound : ∀ node ∈ nodes, node < systems.length) {lanes : Nat → Lane}
    {settled : List Settled} {workspace workspace' : Workspace (Store ν)}
    {results : List (Nat × TaskResult)}
    (hperm : order.Perm (nodes.filter fun node => (plan.blocker? settled node).isNone))
    (hlookup : ∀ node, results.lookup node =
      (plan.runEach context lanes order workspace).1.lookup node)
    (hshared : workspace' = (plan.runEach context lanes order workspace).2)
    (profiler : Profiler) :
    nodes.foldl (plan.advance context) (.ofSettled settled workspace) =
      .ofSettled (settled ++ nodes.filterMap (plan.skip? settled) ++
        results.map fun (node, result) => plan.settle profiler node result) workspace' := by
  let blocked := nodes.filter fun node => (plan.blocker? settled node).isSome
  have hsplit : nodes.Perm (blocked ++ order) := by
    have hrest := List.filter_append_perm (fun node => (plan.blocker? settled node).isSome) nodes
    simp only [Option.not_isSome] at hrest
    exact hrest.symm.trans (hperm.symm.append_left _)
  have hskips : blocked.filterMap (plan.skip? settled) = nodes.filterMap (plan.skip? settled) := by
    rw [List.filterMap_filter]
    apply List.filterMap_congr
    intro node _
    cases hblocker : plan.blocker? settled node with
    | none => simp [skip?, hblocker]
    | some id => rfl
  have hrunnable : ∀ node ∈ order, node ∈ nodes ∧ plan.blocker? settled node = none := by
    intro node hnode
    obtain ⟨hmem, hnone⟩ := List.mem_filter.mp (hperm.mem_iff.mp hnode)
    exact ⟨hmem, Option.isNone_iff_eq_none.mp hnone⟩
  calc
    nodes.foldl (plan.advance context) (.ofSettled settled workspace) =
        order.foldl (plan.advance context)
          (blocked.foldl (plan.advance context) (.ofSettled settled workspace)) := by
      rw [foldl_advance_eq_of_perm hbuild hkeeps hsplit hbound hfree, List.foldl_append]
    _ = order.foldl (plan.advance context)
          (.ofSettled (settled ++ nodes.filterMap (plan.skip? settled)) workspace) := by
      rw [foldl_advance_blocked hbuild, hskips]
      · exact hfree.mono (List.filter_subset_self _)
      · intro node hnode
        exact (List.mem_filter.mp hnode).2
    _ = .ofSettled (settled ++ nodes.filterMap (plan.skip? settled) ++
          (plan.runEach context lanes order workspace).1.map
            fun (node, result) => plan.settle profiler node result)
          (plan.runEach context lanes order workspace).2 := by
      apply foldl_advance_runEach hbuild hkeeps
      · exact hfree.mono fun node hnode => (hrunnable node hnode).1
      · intro node hnode
        exact hbound node (hrunnable node hnode).1
      · intro node hnode
        rw [blocker?_append hbuild]
        · exact (hrunnable node hnode).2
        · intro entry hentry
          obtain ⟨other, hother, hskip⟩ := List.mem_filterMap.mp hentry
          obtain ⟨id, -, rfl⟩ := Option.map_eq_some_iff.mp hskip
          exact hfree other hother node (hrunnable node hnode).1
    _ = .ofSettled (settled ++ nodes.filterMap (plan.skip? settled) ++
          results.map fun (node, result) => plan.settle profiler node result) workspace' := by
      apply Standing.ext
      · funext node
        simp only [Standing.ofSettled, Settled.fates_append, fates_map_settle, hlookup]
      · rw [hshared]
        rfl

theorem foldl_advance_runRound (lanes : Nat → Lane) {order : List Nat}
    (hfree : (Graph.ofSystems systems tags).IsIndependent order)
    (hbound : ∀ node ∈ order, node < systems.length) (settled : List Settled)
    (workspace : Workspace (Store ν)) :
    order.foldl (plan.advance context) (.ofSettled settled workspace) =
      .ofSettled (plan.runRound context lanes order settled workspace).1
        (plan.runRound context lanes order settled workspace).2 :=
  foldl_advance_wave hbuild hkeeps hfree hbound (List.Perm.refl _) (fun _ => rfl) rfl _

theorem foldl_advance_runWave {pool : Pool} {lane : Lane} (hlane : pool.lane? = some lane)
    {nodes : List Nat} (hnodup : nodes.Nodup)
    (hfree : (Graph.ofSystems systems tags).IsIndependent nodes)
    (hbound : ∀ node ∈ nodes, node < systems.length) (settled : List Settled)
    (workspace : Workspace (Store ν)) :
    nodes.foldl (plan.advance context) (.ofSettled settled workspace) =
      .ofSettled (plan.runWave pool context nodes settled workspace).1
        (plan.runWave pool context nodes settled workspace).2 := by
  have hlt : ∀ node ∈ nodes.filter fun node => (plan.blocker? settled node).isNone,
      node < plan.systems.length := by
    intro node hnode
    rw [length_systems_of_build hbuild]
    exact hbound node (List.mem_filter.mp hnode).1
  obtain ⟨lanes, order, hperm, hshared, hlookup⟩ :=
    dispatch_eq_runEach hlane context (hnodup.filter _) hlt workspace
  exact foldl_advance_wave hbuild hkeeps hfree hbound hperm hlookup hshared _

end Built

end Plan

end TickWaves
