import TickWaves.Proofs.Tick.Course
import TickWaves.Proofs.Tick.Delegation

/-!
# Which results a wave returns

Whatever the pool does, a dispatch that is done returns one result for each of its systems, in
ascending order (`Reachable.map_fst_results`).  Every result is that of the system beside it,
which was run once, or handed in and never run (`Reachable.earned`).
-/

namespace TickWaves.Delegation

open Interleaving (Phase)

universe u

variable {β : Type u}

/-! ## What was seen of one system -/

def sightings (log : List Sign) (node : Nat) : List Sign :=
  log.filter fun sign => sign.node == node

@[simp]
theorem sightings_append (first second : List Sign) (node : Nat) :
    sightings (first ++ second) node = sightings first node ++ sightings second node :=
  List.filter_append ..

section FlatMap

variable {α : Type*} {key : α → Nat} {signs : α → List Sign}
variable (hsigns : ∀ element, ∀ sign ∈ signs element, sign.node = key element)
include hsigns

theorem sightings_flatMap_of_not_mem {elements : List α} {node : Nat}
    (hnode : node ∉ elements.map key) : sightings (elements.flatMap signs) node = [] := by
  rw [sightings, List.filter_eq_nil_iff]
  intro sign hsign heq
  obtain ⟨element, helement, hmem⟩ := List.mem_flatMap.mp hsign
  apply hnode
  rw [← beq_iff_eq.mp heq, hsigns element sign hmem]
  exact List.mem_map_of_mem helement

theorem sightings_flatMap_of_mem {elements : List α} (hnodup : (elements.map key).Nodup)
    {element : α} (helement : element ∈ elements) :
    sightings (elements.flatMap signs) (key element) = signs element := by
  obtain ⟨left, right, rfl⟩ := List.append_of_mem helement
  rw [List.map_append, List.map_cons, List.nodup_middle, List.nodup_cons, List.mem_append,
    not_or] at hnodup
  have hself : sightings (signs element) (key element) = signs element := by
    rw [sightings, List.filter_eq_self]
    intro sign hsign
    exact beq_iff_eq.mpr (hsigns element sign hsign)
  rw [List.flatMap_append, List.flatMap_cons, sightings_append, sightings_append,
    sightings_flatMap_of_not_mem hsigns hnodup.1.1,
    sightings_flatMap_of_not_mem hsigns hnodup.1.2, hself, List.nil_append, List.append_nil]

end FlatMap

theorem node_of_mem_signs (handle : Handle) : ∀ sign ∈ handle.signs, sign.node = handle.node := by
  obtain ⟨node, stage⟩ := handle
  cases stage <;> simp [Handle.signs, Sign.node]

theorem node_of_mem_ownSigns (entry : Nat × Ending) :
    ∀ sign ∈ ownSigns entry, sign.node = entry.1 := by
  simp [ownSigns, Sign.node]

/-! ## Where a result is from -/

/-- How a system of a wave comes by its result, going by what was seen of it. -/
inductive Earned (plan : Plan β) (nodes : List Nat) (node : Nat) (seen : List Sign) :
    TaskResult → Prop
  /-- The coordinator ran it. -/
  | own {ending : Ending} :
      ¬ plan.IsPooled nodes node →
        seen.Perm [.began node .coordinator, .ended node ending] →
          Earned plan nodes node seen ending.result
  /-- The pool ran it. -/
  | pool {lane : Lane} {ending : Ending} :
      plan.IsPooled nodes node →
        seen.Perm [.handed node, .began node lane, .ended node ending] →
          Earned plan nodes node seen ending.result
  /-- The pool gave it up. -/
  | refused :
      plan.IsPooled nodes node → seen = [.handed node] →
        Earned plan nodes node seen (.error .disconnected)

variable {plan : Plan β} {nodes : List Nat} {state : State}

namespace State.IsAligned

/-- Each system of the wave is with the coordinator or with the pool. -/
theorem perm_nodes (haligned : state.IsAligned plan nodes) (hdone : state.IsDone) :
    (state.own.map Prod.fst ++ state.handles.map Handle.node).Perm nodes := by
  have hpooled := haligned.pooled
  have hbound := haligned.bound
  rw [hdone.1] at hpooled hbound
  rw [← List.append_nil (state.own.map Prod.fst), ← List.append_nil (state.handles.map _)]
  exact hbound ▸ hpooled ▸ Phase.perm_opening plan nodes

theorem log_perm (haligned : state.IsAligned plan nodes) (hdone : state.IsDone) :
    state.log.Perm (state.handles.flatMap Handle.signs ++ state.own.flatMap ownSigns) := by
  have hseen := haligned.seen
  rw [trace, hdone.1] at hseen
  rw [← Multiset.coe_eq_coe, hseen, ← Multiset.coe_add]
  exact add_zero _

theorem handles_eq (haligned : state.IsAligned plan nodes) (hdone : state.IsDone) :
    (Phase.opening plan nodes).unhanded = state.handles.map Handle.node := by
  rw [haligned.pooled, hdone.1]
  exact List.append_nil _

/-- Every fetched answer stands beside the system that it is of. -/
theorem zip_answers (haligned : state.IsAligned plan nodes) (hdone : state.IsDone) :
    (Phase.opening plan nodes).unhanded.zip state.answers =
      state.handles.filterMap Handle.answer? := by
  have hanswers := haligned.answers
  rw [hdone.2, List.take_length] at hanswers
  have hpaired : ((Phase.opening plan nodes).unhanded.zip state.answers).map
      (Prod.map id some) = state.handles.map fun handle => (handle.node, handle.result?) := by
    rw [← List.zip_map_right, haligned.handles_eq hdone, hanswers, List.zip_map']
  calc
    (Phase.opening plan nodes).unhanded.zip state.answers =
        (((Phase.opening plan nodes).unhanded.zip state.answers).map
          (Prod.map id some)).filterMap fun entry => entry.2.map (entry.1, ·) := by
      rw [List.filterMap_map]
      exact List.filterMap_some.symm
    _ = state.handles.filterMap Handle.answer? := by
      rw [hpaired, List.filterMap_map]
      rfl

/-- The results are those of the coordinator and those of the pool. -/
theorem perm_results (haligned : state.IsAligned plan nodes) (hdone : state.IsDone) :
    (state.results plan nodes).Perm
      ((state.own.map fun entry => (entry.1, entry.2.result)) ++
        state.handles.filterMap Handle.answer?) := by
  rw [← haligned.zip_answers hdone]
  exact List.mergeSort_perm _ _

end State.IsAligned

/-- A result is of a system that the coordinator ran, or of one that the pool answered for. -/
theorem Reachable.mem_results (hreach : Reachable plan nodes state) (hdone : state.IsDone)
    {entry : Nat × TaskResult} (hentry : entry ∈ state.results plan nodes) :
    (∃ own ∈ state.own, entry = (own.1, own.2.result)) ∨
      ∃ handle ∈ state.handles, handle.node = entry.1 ∧ handle.result? = some entry.2 := by
  rw [(hreach.isAligned.perm_results hdone).mem_iff, List.mem_append, List.mem_map] at hentry
  rcases hentry with ⟨own, hown, rfl⟩ | hanswered
  · exact Or.inl ⟨own, hown, rfl⟩
  · right
    obtain ⟨handle, hhandle, hanswer⟩ := List.mem_filterMap.mp hanswered
    obtain ⟨result, hresult, rfl⟩ := Option.map_eq_some_iff.mp hanswer
    exact ⟨handle, hhandle, rfl, hresult⟩

/-- A dispatch returns one result for every system, in ascending order. -/
theorem Reachable.map_fst_results (hreach : Reachable plan nodes state) (hdone : state.IsDone)
    (hascending : nodes.Pairwise (· < ·)) :
    (state.results plan nodes).map Prod.fst = nodes := by
  have haligned := hreach.isAligned
  have hperm : ((state.results plan nodes).map Prod.fst).Perm nodes := by
    refine ((List.mergeSort_perm _ _).map Prod.fst).trans ?_
    have hlength : (Phase.opening plan nodes).unhanded.length ≤ state.answers.length := by
      rw [haligned.handles_eq hdone, List.length_map, hdone.2]
    rw [List.map_append, List.map_map, List.map_fst_zip hlength, haligned.handles_eq hdone]
    exact haligned.perm_nodes hdone
  have hsorted : ((state.results plan nodes).map Prod.fst).Pairwise (· ≤ ·) := by
    rw [List.pairwise_map]
    refine (List.pairwise_mergeSort ?_ ?_ _).imp fun hle => of_decide_eq_true hle
    · intro first second third hfirst hsecond
      exact decide_eq_true
        (Nat.le_trans (of_decide_eq_true hfirst) (of_decide_eq_true hsecond))
    · intro first second
      simpa using Nat.le_total first.1 second.1
  exact hperm.eq_of_pairwise' hsorted (hascending.imp Nat.le_of_lt)

/-- Every result of a dispatch is that of the system beside it. -/
theorem Reachable.earned (hreach : Reachable plan nodes state) (hdone : state.IsDone)
    (hnodup : nodes.Nodup) {entry : Nat × TaskResult}
    (hentry : entry ∈ state.results plan nodes) :
    Earned plan nodes entry.1 (sightings state.log entry.1) entry.2 := by
  have haligned := hreach.isAligned
  have hkeys := (haligned.perm_nodes hdone).nodup_iff.mpr hnodup
  obtain ⟨hown, hhandles, hdisjoint⟩ := List.nodup_append'.mp hkeys
  have hseen : ∀ node, (sightings state.log node).Perm
      (sightings (state.handles.flatMap Handle.signs) node ++
        sightings (state.own.flatMap ownSigns) node) := by
    intro node
    rw [← sightings_append]
    exact (haligned.log_perm hdone).filter _
  rcases hreach.mem_results hdone hentry with ⟨own, hmem, rfl⟩ | ⟨handle, hmem, hnode, hresult⟩
  · have hkey : own.1 ∈ state.own.map Prod.fst := List.mem_map_of_mem hmem
    have hkept : ¬ plan.IsPooled nodes own.1 := by
      intro hpooled
      have hin := (haligned.perm_nodes hdone).mem_iff.mp (List.mem_append_left _ hkey)
      have hhanded := Plan.mem_unhanded_opening.mpr ⟨hin, hpooled⟩
      rw [haligned.handles_eq hdone] at hhanded
      exact hdisjoint hkey hhanded
    have hsigns := hseen own.1
    rw [sightings_flatMap_of_not_mem node_of_mem_signs fun hother => hdisjoint hkey hother,
      sightings_flatMap_of_mem node_of_mem_ownSigns hown hmem] at hsigns
    exact .own hkept hsigns
  · have hkey : handle.node ∈ state.handles.map Handle.node := List.mem_map_of_mem hmem
    have hpooled : plan.IsPooled nodes entry.1 := by
      rw [← hnode]
      rw [← haligned.handles_eq hdone] at hkey
      exact (Plan.mem_unhanded_opening.mp hkey).2
    have hsigns := hseen entry.1
    rw [← hnode, sightings_flatMap_of_mem node_of_mem_signs hhandles hmem,
      sightings_flatMap_of_not_mem node_of_mem_ownSigns fun hother => hdisjoint hother hkey,
      List.append_nil, hnode] at hsigns
    obtain ⟨node, stage⟩ := handle
    obtain ⟨other, result⟩ := entry
    obtain rfl : node = other := hnode
    cases stage with
    | accepted => cases hresult
    | running lane => cases hresult
    | answered lane ending =>
        obtain rfl := Option.some.inj hresult
        exact .pool hpooled hsigns
    | refused =>
        obtain rfl := Option.some.inj hresult
        exact .refused hpooled (List.perm_singleton.mp hsigns)

/-- Nothing is seen of a system that is not of the wave. -/
theorem Reachable.sightings_eq_nil (hreach : Reachable plan nodes state) (hdone : state.IsDone)
    {node : Nat} (hnode : node ∉ nodes) : sightings state.log node = [] := by
  have haligned := hreach.isAligned
  rw [← (haligned.perm_nodes hdone).mem_iff, List.mem_append, not_or] at hnode
  have hseen := (haligned.log_perm hdone).filter fun sign => sign.node == node
  rw [← List.perm_nil]
  refine hseen.trans (List.Perm.of_eq ?_)
  change sightings _ node = []
  rw [sightings_append, sightings_flatMap_of_not_mem node_of_mem_signs hnode.2,
    sightings_flatMap_of_not_mem node_of_mem_ownSigns hnode.1, List.append_nil]

end TickWaves.Delegation
