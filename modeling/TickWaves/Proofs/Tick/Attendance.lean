import TickWaves.Proofs.Tick.Crediting
import TickWaves.Proofs.Tick.Replay

/-!
# Whose bodies are run, whatever the pool

A tick dispatches its waves one after the other, and it may be stopped before any of them
(`Course`).  A later wave takes nothing away from what is decided about an earlier one, so by
induction over the waves every status says what was seen of its system (`Course.agrees`), and a
system was handed to the pool just if it shared the run of its wave with others and is not
bound to the coordinating thread (`Course.handed_iff`).
-/

namespace TickWaves

universe u

variable {β : Type u}

def Settled.ofResult (entry : Nat × TaskResult) : Settled :=
  ⟨entry.1, Plan.statusOf entry.2, none⟩

theorem Settled.fates_map_ofResult (results : List (Nat × TaskResult)) (node : Nat) :
    Settled.fates (results.map Settled.ofResult) node =
      (results.lookup node).map Plan.statusOf := by
  have huntimed : results.map Settled.ofResult = (results.map fun entry =>
      (Plan.empty : Plan Unit).settle (Profiler.ofSize 0) entry.1 entry.2).map
        Settled.untimed := by
    rw [List.map_map]
    rfl
  rw [huntimed, Settled.fates_untimed]
  exact Plan.fates_map_settle _ _ results node

def Plan.unblocked (plan : Plan β) (settled : List Settled) (nodes : List Nat) : List Nat :=
  nodes.filter fun node => (plan.blocker? settled node).isNone

theorem Plan.mem_unblocked {plan : Plan β} {settled : List Settled} {nodes : List Nat}
    {node : Nat} :
    node ∈ plan.unblocked settled nodes ↔ node ∈ nodes ∧ plan.blocker? settled node = none := by
  rw [unblocked, List.mem_filter, Option.isNone_iff_eq_none]

theorem Plan.unblocked_congr {plan : Plan β} {settled settled' : List Settled}
    {nodes : List Nat}
    (hblocker : ∀ node ∈ nodes, plan.blocker? settled' node = plan.blocker? settled node) :
    plan.unblocked settled' nodes = plan.unblocked settled nodes := by
  apply List.filter_congr
  intro node hnode
  rw [hblocker node hnode]

namespace Delegation

/-- What is decided when the members of a wave that are not blocked have been dispatched. -/
def State.settle (state : State) (plan : Plan β) (settled : List Settled) (nodes : List Nat) :
    List Settled :=
  settled ++ nodes.filterMap (plan.skip? settled) ++
    (state.results plan (plan.unblocked settled nodes)).map Settled.ofResult

/-- What may be decided and seen when the first waves of a tick have been run on some pool. -/
inductive Course (plan : Plan β) : Nat → List Settled → List Sign → Prop
  | start : Course plan 0 [] []
  | wave {count : Nat} {settled : List Settled} {log : List Sign} {wave : Wave}
      {state : State} :
      Course plan count settled log → plan.waves[count]? = some wave →
        Reachable plan (plan.unblocked settled wave.nodes) state → state.IsDone →
          Course plan (count + 1) (state.settle plan settled wave.nodes) (log ++ state.log)

/-- What is known of a member of a wave that was run. -/
inductive Decided (plan : Plan β) (settled : List Settled) (nodes : List Nat) (node : Nat)
    (seen : List Sign) : Prop
  | skipped {id : SystemId} :
      plan.blocker? settled node = some id →
        Settled.fates settled node = some (.skipped id) → seen = [] →
          Decided plan settled nodes node seen
  | answered {result : TaskResult} :
      plan.blocker? settled node = none →
        Settled.fates settled node = some (Plan.statusOf result) →
          Earned plan (plan.unblocked settled nodes) node seen result →
            Decided plan settled nodes node seen

/-- Of the first waves every member is decided, and of the others none is. -/
structure IsSound (plan : Plan β) (count : Nat) (settled : List Settled) (log : List Sign) :
    Prop where
  decided : ∀ {index wave}, index < count → plan.waves[index]? = some wave →
    ∀ node ∈ wave.nodes, Decided plan settled wave.nodes node (sightings log node)
  ahead : ∀ {node}, (∀ index < count, ¬ plan.IsIn node index) →
    Settled.fates settled node = none ∧ sightings log node = []

section Decided

variable {plan : Plan β} {settled settled' : List Settled} {nodes : List Nat} {node : Nat}
variable {seen : List Sign}

theorem Decided.exists_fate (hdecided : Decided plan settled nodes node seen) :
    ∃ status, Settled.fates settled node = some status := by
  cases hdecided with
  | skipped _ hfate _ => exact ⟨_, hfate⟩
  | answered _ hfate _ => exact ⟨_, hfate⟩

/-- What is decided about the members of a wave is all that matters. -/
theorem Decided.congr (hdecided : Decided plan settled nodes node seen) (hnode : node ∈ nodes)
    (hblocker : ∀ other ∈ nodes, plan.blocker? settled' other = plan.blocker? settled other)
    (hfate : Settled.fates settled' node = Settled.fates settled node) :
    Decided plan settled' nodes node seen := by
  cases hdecided with
  | skipped hblocked hskipped hseen =>
      exact .skipped ((hblocker node hnode).trans hblocked) (hfate.trans hskipped) hseen
  | answered hclear hanswered hearned =>
      refine .answered ((hblocker node hnode).trans hclear) (hfate.trans hanswered) ?_
      rw [Plan.unblocked_congr hblocker]
      exact hearned

end Decided

/-- A system was dispatched with its wave, or nothing is seen of it. -/
theorem IsSound.seen_cases {plan : Plan β} {count : Nat} {settled : List Settled}
    {log : List Sign} (hsound : IsSound plan count settled log) (node : Nat) :
    (∃ index < count, ∃ wave, plan.waves[index]? = some wave ∧
      node ∈ plan.unblocked settled wave.nodes ∧ ∃ result,
        Earned plan (plan.unblocked settled wave.nodes) node (sightings log node) result) ∨
      sightings log node = [] ∧ ∀ index < count, ∀ wave, plan.waves[index]? = some wave →
        node ∉ plan.unblocked settled wave.nodes := by
  by_cases hin : ∃ index < count, plan.IsIn node index
  · obtain ⟨index, hlt, wave, hwave, hnode⟩ := hin
    cases hsound.decided hlt hwave node hnode with
    | skipped hblocked _ hseen =>
        refine Or.inr ⟨hseen, fun _ _ _ _ hmem => ?_⟩
        have hclear := (Plan.mem_unblocked.mp hmem).2
        rw [hblocked] at hclear
        cases hclear
    | answered hclear _ hearned =>
        exact Or.inl
          ⟨index, hlt, wave, hwave, Plan.mem_unblocked.mpr ⟨hnode, hclear⟩, _, hearned⟩
  · push Not at hin
    refine Or.inr ⟨(hsound.ahead hin).2, fun index hlt wave hwave hmem => ?_⟩
    exact hin index hlt ⟨wave, hwave, (Plan.mem_unblocked.mp hmem).1⟩

section Wave

variable {plan : Plan β} {settled : List Settled} {nodes : List Nat} {state : State}

/-- What a wave decides about its members. -/
theorem Reachable.decided (hreach : Reachable plan (plan.unblocked settled nodes) state)
    (hdone : state.IsDone) (hascending : nodes.Pairwise (· < ·)) {node : Nat}
    (hnode : node ∈ nodes) (hfate : Settled.fates settled node = none) :
    let fate := Settled.fates (state.settle plan settled nodes) node
    (∃ id, plan.blocker? settled node = some id ∧ fate = some (.skipped id) ∧
        sightings state.log node = []) ∨
      plan.blocker? settled node = none ∧
        ∃ result, fate = some (Plan.statusOf result) ∧
          Earned plan (plan.unblocked settled nodes) node (sightings state.log node) result := by
  dsimp only
  rw [State.settle, Settled.fates_append, Settled.fates_append, hfate, Option.none_or,
    Plan.fates_skipped, if_pos hnode, Settled.fates_map_ofResult]
  cases hblocker : plan.blocker? settled node with
  | some id =>
      refine Or.inl ⟨id, rfl, rfl, hreach.sightings_eq_nil hdone fun hmem => ?_⟩
      have hclear := (Plan.mem_unblocked.mp hmem).2
      rw [hblocker] at hclear
      cases hclear
  | none =>
      have hrest : (plan.unblocked settled nodes).Pairwise (· < ·) := hascending.filter _
      have hkey : node ∈
          (state.results plan (plan.unblocked settled nodes)).map Prod.fst := by
        rw [hreach.map_fst_results hdone hrest]
        exact Plan.mem_unblocked.mpr ⟨hnode, hblocker⟩
      obtain ⟨result, hresult⟩ := exists_lookup_eq_some hkey
      refine Or.inr ⟨rfl, result, by rw [hresult]; rfl, ?_⟩
      exact hreach.earned hdone (hrest.imp Nat.ne_of_lt) (mem_of_lookup_eq_some hresult)

/-- A wave decides nothing about other systems and leaves what was decided. -/
theorem fates_settle_of_not_mem (hreach : Reachable plan (plan.unblocked settled nodes) state)
    (hdone : state.IsDone) (hascending : nodes.Pairwise (· < ·)) {node : Nat}
    (hnode : node ∉ nodes) :
    Settled.fates (state.settle plan settled nodes) node = Settled.fates settled node := by
  have hkeys := hreach.map_fst_results hdone (hascending.filter _)
  have hkey : node ∉ (state.results plan (plan.unblocked settled nodes)).map Prod.fst := by
    rw [hkeys]
    exact fun hmem => hnode (Plan.mem_unblocked.mp hmem).1
  rw [State.settle, Settled.fates_append, Settled.fates_append, Plan.fates_skipped,
    if_neg hnode, Settled.fates_map_ofResult, lookup_eq_none_of_not_mem hkey, Option.map_none,
    Option.or_none, Option.or_none]

end Wave

section Course

variable {systems : List (Descriptor β)} {tags : TagOrder} {generation : Nat} {plan : Plan β}
variable (hbuild : Plan.build systems tags generation = .ok plan)
variable {count : Nat} {settled : List Settled} {log : List Sign}
include hbuild

/-- What blocks a member of a wave was decided before the wave. -/
theorem IsSound.blocker?_settle (hsound : IsSound plan count settled log) (state : State)
    (nodes : List Nat) {node index : Nat} (hin : plan.IsIn node index) (hle : index ≤ count) :
    plan.blocker? (state.settle plan settled nodes) node = plan.blocker? settled node := by
  rw [Plan.blocker?_eq_blockerBy, Plan.blocker?_eq_blockerBy]
  apply Plan.blockerBy_congr hbuild
  intro before hleads
  obtain ⟨first, -, rfl, -⟩ := Graph.fin_of_leads_assembled hleads
  obtain ⟨earlier, hearlier⟩ := Plan.exists_isIn hbuild first.isLt
  have hlt := Plan.index_lt_of_leads hbuild hleads hearlier hin
  obtain ⟨wave, hwave, hmem⟩ := hearlier
  obtain ⟨status, hstatus⟩ :=
    (hsound.decided (Nat.lt_of_lt_of_le hlt hle) hwave _ hmem).exists_fate
  rw [State.settle, Settled.fates_append, Settled.fates_append, hstatus, Option.some_or,
    Option.some_or]

theorem IsSound.wave (hsound : IsSound plan count settled log) {wave : Wave}
    (hwave : plan.waves[count]? = some wave) {state : State}
    (hreach : Reachable plan (plan.unblocked settled wave.nodes) state) (hdone : state.IsDone) :
    IsSound plan (count + 1) (state.settle plan settled wave.nodes) (log ++ state.log) := by
  have hascending := Plan.pairwise_lt_nodes_of_build hbuild (List.mem_of_getElem? hwave)
  have hfresh : ∀ node ∈ wave.nodes, ∀ index < count, ¬ plan.IsIn node index := by
    intro node hnode index hlt hin
    have heq : index = count := Plan.IsIn.eq_index hbuild hin ⟨wave, hwave, hnode⟩
    omega
  have hblocker : ∀ {index earlier}, index ≤ count → plan.waves[index]? = some earlier →
      ∀ node ∈ earlier.nodes, plan.blocker? (state.settle plan settled wave.nodes) node =
        plan.blocker? settled node := fun hle hearlier node hnode =>
    hsound.blocker?_settle hbuild state wave.nodes ⟨_, hearlier, hnode⟩ hle
  constructor
  · intro index earlier hlt hearlier node hnode
    rw [sightings_append]
    rcases Nat.lt_succ_iff_lt_or_eq.mp hlt with hold | rfl
    · -- A member of an earlier wave is not in this one, so nothing more is seen of it.
      have hnew : node ∉ wave.nodes := fun hmem =>
        hfresh node hmem index hold ⟨earlier, hearlier, hnode⟩
      have hout : node ∉ plan.unblocked settled wave.nodes := fun hmem =>
        hnew (Plan.mem_unblocked.mp hmem).1
      rw [hreach.sightings_eq_nil hdone hout, List.append_nil]
      exact (hsound.decided hold hearlier node hnode).congr hnode
        (hblocker (Nat.le_of_lt hold) hearlier)
        (fates_settle_of_not_mem hreach hdone hascending hnew)
    · obtain rfl : wave = earlier := Option.some.inj (hwave.symm.trans hearlier)
      have hsame := hblocker (Nat.le_refl _) hwave
      obtain ⟨hfate, hunseen⟩ := hsound.ahead (hfresh node hnode)
      rw [hunseen, List.nil_append]
      rcases hreach.decided hdone hascending hnode hfate with
        ⟨id, hblocked, hskipped, hseen⟩ | ⟨hclear, result, hanswered, hearned⟩
      · exact .skipped ((hsame node hnode).trans hblocked) hskipped hseen
      · refine .answered ((hsame node hnode).trans hclear) hanswered ?_
        rw [Plan.unblocked_congr hsame]
        exact hearned
  · intro node hnode
    have hnew : node ∉ wave.nodes := fun hmem =>
      hnode count (Nat.lt_succ_self _) ⟨wave, hwave, hmem⟩
    have hout : node ∉ plan.unblocked settled wave.nodes := fun hmem =>
      hnew (Plan.mem_unblocked.mp hmem).1
    obtain ⟨hfate, hunseen⟩ := hsound.ahead fun index hlt => hnode index (Nat.lt_succ_of_lt hlt)
    rw [fates_settle_of_not_mem hreach hdone hascending hnew, sightings_append, hunseen,
      hreach.sightings_eq_nil hdone hout]
    exact ⟨hfate, rfl⟩

theorem Course.isSound (hcourse : Course plan count settled log) :
    IsSound plan count settled log := by
  induction hcourse with
  | start => exact ⟨fun hlt => absurd hlt (Nat.not_lt_zero _), fun _ => ⟨rfl, rfl⟩⟩
  | wave _ hwave hreach hdone ih => exact ih.wave hbuild hwave hreach hdone

end Course

/-! ## What a status says about the run of a body -/

/-- A body was run, and it was run once. -/
def RanOnce (seen : List Sign) (node : Nat) (ending : Ending) : Prop :=
  (∃ lane, seen.Perm [.handed node, .began node lane, .ended node ending]) ∨
    seen.Perm [.began node .coordinator, .ended node ending]

/-- What the status of a system says about its body: it was run once if the system did its
work or failed by itself, and it was not run if the system failed for want of a pool, was
skipped or was cancelled. -/
def Agrees (seen : List Sign) (node : Nat) : Status → Prop
  | .completed => RanOnce seen node .done
  | .failed error =>
      (∃ ending cause, RanOnce seen node ending ∧ ending.result = .error cause ∧
        error = .ofTask cause) ∨
      seen = [.handed node] ∧ error = .ofTask .disconnected
  | .skipped _ => seen = []
  | .cancelled => seen = []

theorem RanOnce.agrees {seen : List Sign} {node : Nat} {ending : Ending}
    (hran : RanOnce seen node ending) : Agrees seen node (Plan.statusOf ending.result) := by
  cases ending with
  | done => exact hran
  | failed causes => exact Or.inl ⟨.failed causes, _, hran, rfl, rfl⟩
  | panicked payload => exact Or.inl ⟨.panicked payload, _, hran, rfl, rfl⟩

theorem Earned.agrees {plan : Plan β} {nodes : List Nat} {node : Nat} {seen : List Sign}
    {result : TaskResult} (hearned : Earned plan nodes node seen result) :
    Agrees seen node (Plan.statusOf result) := by
  cases hearned with
  | own _ hseen => exact RanOnce.agrees (Or.inr hseen)
  | pool _ hseen => exact RanOnce.agrees (Or.inl ⟨_, hseen⟩)
  | refused _ hseen => exact Or.inr ⟨hseen, rfl⟩

theorem Earned.handed_iff {plan : Plan β} {nodes : List Nat} {node : Nat} {seen : List Sign}
    {result : TaskResult} (hearned : Earned plan nodes node seen result) :
    .handed node ∈ seen ↔ plan.IsPooled nodes node := by
  cases hearned with
  | own hkept hseen =>
      rw [hseen.mem_iff]
      exact iff_of_false (by simp) hkept
  | pool hpooled hseen =>
      rw [hseen.mem_iff]
      exact iff_of_true List.mem_cons_self hpooled
  | refused hpooled hseen =>
      rw [hseen]
      exact iff_of_true List.mem_cons_self hpooled

/-- What is not handed to the pool runs on the coordinating thread. -/
theorem Earned.lane_eq {plan : Plan β} {nodes : List Nat} {node : Nat} {seen : List Sign}
    {result : TaskResult} (hearned : Earned plan nodes node seen result) {lane : Lane}
    (hbegan : .began node lane ∈ seen) (hkept : .handed node ∉ seen) : lane = .coordinator := by
  cases hearned with
  | own _ hseen =>
      rw [hseen.mem_iff] at hbegan
      simpa using hbegan
  | pool _ hseen => exact absurd (hseen.mem_iff.mpr List.mem_cons_self) hkept
  | refused _ hseen => exact absurd (hseen ▸ List.mem_cons_self) hkept

theorem mem_sightings {log : List Sign} {sign : Sign} :
    sign ∈ sightings log sign.node ↔ sign ∈ log := by
  rw [sightings, List.mem_filter, beq_self_eq_true]
  exact and_iff_left rfl

section Course

variable {systems : List (Descriptor β)} {tags : TagOrder} {generation : Nat} {plan : Plan β}
variable (hbuild : Plan.build systems tags generation = .ok plan)
variable {count : Nat} {settled : List Settled} {log : List Sign}
variable (hcourse : Course plan count settled log)
include hbuild hcourse

/-- What a system's status says about its body is what was seen of it. -/
theorem Course.agrees {node : Nat} (hnode : node < systems.length) :
    Agrees (sightings log node) node ((Settled.fates settled node).getD .cancelled) := by
  have hsound := hcourse.isSound hbuild
  obtain ⟨index, hin⟩ := Plan.exists_isIn hbuild hnode
  by_cases hlt : index < count
  · obtain ⟨wave, hwave, hmem⟩ := hin
    cases hsound.decided hlt hwave node hmem with
    | skipped _ hfate hseen =>
        rw [hfate]
        exact hseen
    | answered _ hfate hearned =>
        rw [hfate]
        exact hearned.agrees
  · have hahead : ∀ earlier < count, ¬ plan.IsIn node earlier := by
      intro earlier hearlier hin'
      have heq := Plan.IsIn.eq_index hbuild hin' hin
      omega
    obtain ⟨hfate, hunseen⟩ := hsound.ahead hahead
    rw [hfate]
    exact hunseen

/-- What is handed to the pool are the members of a wave that share its run with others and
are not bound to the coordinating thread. -/
theorem Course.handed_iff (node : Nat) :
    .handed node ∈ log ↔ ∃ index < count, ∃ wave, plan.waves[index]? = some wave ∧
      node ∈ plan.unblocked settled wave.nodes ∧
        plan.IsPooled (plan.unblocked settled wave.nodes) node := by
  rw [← mem_sightings]
  change _ ∈ sightings log node ↔ _
  rcases (hcourse.isSound hbuild).seen_cases node with
    ⟨index, hlt, wave, hwave, hmem, result, hearned⟩ | ⟨hunseen, hout⟩
  · rw [hearned.handed_iff]
    constructor
    · intro hpooled
      exact ⟨index, hlt, wave, hwave, hmem, hpooled⟩
    · rintro ⟨other, -, wave', hwave', hmem', hpooled⟩
      obtain rfl : other = index := Plan.IsIn.eq_index hbuild
        ⟨wave', hwave', (Plan.mem_unblocked.mp hmem').1⟩
        ⟨wave, hwave, (Plan.mem_unblocked.mp hmem).1⟩
      obtain rfl : wave' = wave := Option.some.inj (hwave'.symm.trans hwave)
      exact hpooled
  · rw [hunseen]
    refine iff_of_false List.not_mem_nil ?_
    rintro ⟨index, hlt, wave, hwave, hmem, -⟩
    exact hout index hlt wave hwave hmem

theorem Course.lane_eq {node : Nat} {lane : Lane} (hbegan : .began node lane ∈ log)
    (hkept : .handed node ∉ log) : lane = .coordinator := by
  rw [← mem_sightings] at hbegan hkept
  change _ ∈ sightings log node at hbegan
  rcases (hcourse.isSound hbuild).seen_cases node with
    ⟨_, _, _, _, _, _, hearned⟩ | ⟨hunseen, -⟩
  · exact hearned.lane_eq hbegan hkept
  · rw [hunseen] at hbegan
    exact absurd hbegan List.not_mem_nil

omit hbuild in
/-- The next wave can be run, whatever the pool. -/
theorem Course.exists_next (hlt : count < plan.waves.length) :
    ∃ settled' log', Course plan (count + 1) settled' log' := by
  obtain ⟨state, hreach, hdone⟩ := Reachable.exists_isDone
    (.refl : Reachable plan (plan.unblocked settled plan.waves[count].nodes) _)
  exact ⟨_, _, .wave hcourse (List.getElem?_eq_getElem hlt) hreach hdone⟩

end Course

end Delegation

end TickWaves
