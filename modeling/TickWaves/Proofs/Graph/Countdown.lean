import Mathlib.Data.List.Nodup
import TickWaves.Graph.Layers
import TickWaves.Proofs.Graph.Peeling

/-!
# Counting down comes to the same as peeling

Before every round, the counter of a node is the number of its successors that are still
to be placed, and the nodes of the next layer are those that are ready (`Layers.Fits`).  So
a round lowers every counter once for each edge into its layer, which it can, and what it
frees is what is ready after it (`Layers.Fits.countDown?_eq`).
-/

namespace TickWaves.Layers

namespace Countdown

/-- What taking one for each node of a list comes to. -/
structure Lowers (countdown : Countdown) (nodes : List Nat) (later : Countdown) : Prop where
  counters : ∀ node : Nat,
    later.counters[node]? = countdown.counters[node]?.map (· - nodes.count node)
  freed : ∀ node, node ∈ later.freed ↔ node ∈ countdown.freed ∨
    node ∈ nodes ∧ countdown.counters[node]? = some (nodes.count node)

theorem lower?_eq {countdown : Countdown} {node left : Nat}
    (hcount : countdown.counters[node]? = some (left + 1)) :
    countdown.lower? node = some (countdown.lowered node left) := by
  simp only [lower?, hcount]

theorem getElem?_lowered {countdown : Countdown} {node left : Nat}
    (hcount : countdown.counters[node]? = some (left + 1)) (other : Nat) :
    (countdown.lowered node left).counters[other]? =
      if other = node then some left else countdown.counters[other]? := by
  have hbound := (List.getElem?_eq_some_iff.mp hcount).1
  by_cases heq : other = node
  · rw [if_pos heq, heq]
    exact List.getElem?_set_self hbound
  · rw [if_neg heq]
    exact List.getElem?_set_ne (Ne.symm heq)

theorem mem_freed_lowered {countdown : Countdown} {node left other : Nat} :
    other ∈ (countdown.lowered node left).freed ↔
      other ∈ countdown.freed ∨ other = node ∧ left = 0 := by
  rw [lowered]
  split
  case isTrue hleft =>
    rw [KeySet.mem_insert, and_iff_left hleft]
    exact or_comm
  case isFalse hleft => rw [or_iff_left fun hlast => hleft hlast.2]

/-- Taking one for the first node of a list, and then for the others. -/
theorem Lowers.cons {countdown later : Countdown} {node left : Nat} {nodes : List Nat}
    (hcount : countdown.counters[node]? = some (left + 1)) (hroom : nodes.count node ≤ left)
    (hlowers : Lowers (countdown.lowered node left) nodes later) :
    Lowers countdown (node :: nodes) later where
  counters other := by
    rw [hlowers.counters, getElem?_lowered hcount]
    by_cases heq : other = node
    · rw [if_pos heq, heq, hcount, List.count_cons_self, Option.map_some, Option.map_some,
        Nat.add_sub_add_right]
    · rw [if_neg heq, List.count_cons_of_ne (Ne.symm heq)]
  freed other := by
    rw [hlowers.freed, mem_freed_lowered, getElem?_lowered hcount, or_assoc]
    refine or_congr_right ?_
    by_cases heq : other = node
    · -- One more is taken from this counter than the rest of the list asks for.
      have hlast : left = 0 ∨ 0 < nodes.count node ∧ left = nodes.count node ↔
          left = nodes.count node := by
        omega
      rw [heq, if_pos rfl, hcount, List.count_cons_self, Option.some.injEq, Option.some.injEq,
        Nat.add_right_cancel_iff, ← List.count_pos_iff]
      simpa only [true_and, List.mem_cons_self] using hlast
    · rw [or_iff_right fun hlast => heq hlast.1, if_neg heq, List.mem_cons, or_iff_right heq,
        List.count_cons_of_ne (Ne.symm heq)]

/-- If every counter has enough to take, then all is taken. -/
theorem exists_lowers_of_count_le {countdown : Countdown} {nodes : List Nat}
    (hroom : ∀ node ∈ nodes, ∃ count, countdown.counters[node]? = some count ∧
      nodes.count node ≤ count) :
    ∃ later, nodes.foldlM lower? countdown = some later ∧ Lowers countdown nodes later := by
  induction nodes generalizing countdown with
  | nil => exact ⟨countdown, rfl, by simp, by simp⟩
  | cons head nodes ih =>
      obtain ⟨count, hcount, hle⟩ := hroom head List.mem_cons_self
      rw [List.count_cons_self] at hle
      obtain ⟨left, rfl⟩ : ∃ left, count = left + 1 := ⟨count - 1, by omega⟩
      have hrest : ∀ node ∈ nodes, ∃ count,
          (countdown.lowered head left).counters[node]? = some count ∧
            nodes.count node ≤ count := by
        intro node hnode
        rw [getElem?_lowered hcount]
        by_cases heq : node = head
        · rw [if_pos heq, heq]
          exact ⟨left, rfl, Nat.le_of_succ_le_succ hle⟩
        · rw [if_neg heq, ← List.count_cons_of_ne (Ne.symm heq)]
          exact hroom node (List.mem_cons_of_mem _ hnode)
      obtain ⟨later, hfold, hlowers⟩ := ih hrest
      refine ⟨later, ?_, hlowers.cons hcount (Nat.le_of_succ_le_succ hle)⟩
      rw [List.foldlM_cons, lower?_eq hcount]
      exact hfold

/-- A round takes one for each edge into its layer. -/
theorem foldlM_place?_eq {table : Array (List Nat)} {prev : Nat → List Nat}
    {layer : List Nat} {countdown : Countdown}
    (htable : ∀ node ∈ layer, table[node]? = some (prev node)) :
    layer.foldlM (place? table) countdown =
      (layer.flatMap prev).foldlM lower? countdown := by
  induction layer generalizing countdown with
  | nil => rfl
  | cons node layer ih =>
      rw [List.foldlM_cons, List.flatMap_cons, List.foldlM_append, place?,
        htable node List.mem_cons_self, Option.bind_some]
      congr 1
      funext later
      exact ih fun other hother => htable other (List.mem_cons_of_mem _ hother)

end Countdown

section Rounds

variable {next prev : Nat → List Nat} {table : Array (List Nat)}
variable {size : Nat} {counters nodes : List Nat}

/-- Two lists of ends for the same edges: as often as a node is listed before another one,
that one is listed after it. -/
def AreInverse (next prev : Nat → List Nat) : Prop :=
  ∀ before after, (prev after).count before = (next before).count after

theorem AreInverse.mem_iff (hinverse : AreInverse next prev) {before after : Nat} :
    before ∈ prev after ↔ after ∈ next before := by
  rw [← List.count_pos_iff, hinverse, List.count_pos_iff]

theorem countP_mem_cons {head : Nat} (hhead : head ∉ nodes) (others : List Nat) :
    others.countP (· ∈ head :: nodes) = others.count head + others.countP (· ∈ nodes) := by
  induction others with
  | nil => rfl
  | cons other others ih =>
      rw [List.countP_cons, List.countP_cons, List.count_cons, ih]
      by_cases heq : other = head
      · subst heq
        simp only [List.mem_cons_self, hhead, decide_true, decide_false, beq_self_eq_true,
          if_true, Bool.false_eq_true, if_false]
        omega
      · simp only [List.mem_cons, heq, false_or, beq_iff_eq, if_false]
        omega

/-- As many edges lead from a node into a list as the node has successors there. -/
theorem AreInverse.count_flatMap (hinverse : AreInverse next prev) (hnodes : nodes.Nodup)
    (node : Nat) : (nodes.flatMap prev).count node = (next node).countP (· ∈ nodes) := by
  induction nodes with
  | nil => simp
  | cons head nodes ih =>
      obtain ⟨hhead, hrest⟩ := List.nodup_cons.mp hnodes
      rw [List.flatMap_cons, List.count_append, hinverse, ih hrest, countP_mem_cons hhead]

theorem countP_mem_eq_add (next : Nat → List Nat) (nodes others : List Nat) :
    others.countP (· ∈ nodes) =
      others.countP (· ∈ ready next nodes) + others.countP (· ∈ waiting next nodes) := by
  induction others with
  | nil => rfl
  | cons other others ih =>
      have hnode : other ∈ ready next nodes → other ∈ nodes := fun hmem => (mem_ready.mp hmem).1
      simp only [List.countP_cons, ih, mem_waiting, decide_eq_true_eq]
      by_cases hready : other ∈ ready next nodes
      · simp only [hready, hnode hready, if_true, not_true, and_false, if_false]
        omega
      · simp only [hready, if_false, not_false_eq_true, and_true]
        omega

/-- The counters fit the nodes that are still to be placed: each counts the successors of
its node among them, and whoever waits for one of them is one of them. -/
structure Fits (next : Nat → List Nat) (size : Nat) (counters nodes : List Nat) : Prop where
  sublist : nodes.Sublist (List.range size)
  before : ∀ node, ∀ other ∈ next node, other ∈ nodes → node ∈ nodes
  counters : ∀ node < size, counters[node]? = some ((next node).countP (· ∈ nodes))

namespace Fits

theorem lt_size (hfits : Fits next size counters nodes) {node : Nat} (hnode : node ∈ nodes) :
    node < size :=
  List.mem_range.mp (hfits.sublist.subset hnode)

theorem nodup (hfits : Fits next size counters nodes) : nodes.Nodup :=
  List.nodup_range.sublist hfits.sublist

theorem nodup_ready (hfits : Fits next size counters nodes) : (ready next nodes).Nodup :=
  hfits.nodup.filter _

theorem mem_waiting_of_mem_flatMap (hinverse : AreInverse next prev)
    (hfits : Fits next size counters nodes) {node : Nat}
    (hnode : node ∈ (ready next nodes).flatMap prev) : node ∈ waiting next nodes := by
  obtain ⟨other, hready, hbefore⟩ := List.mem_flatMap.mp hnode
  have hother := hinverse.mem_iff.mp hbefore
  have hplace := (mem_ready.mp hready).1
  exact mem_waiting_iff_exists.mpr
    ⟨hfits.before node other hother hplace, other, hother, hplace⟩

/-- A round can take one for every edge into its layer. -/
theorem exists_lowers (hinverse : AreInverse next prev)
    (hfits : Fits next size counters nodes) :
    ∃ later, ((ready next nodes).flatMap prev).foldlM Countdown.lower? ⟨counters, KeySet.empty⟩ =
        some later ∧
      Countdown.Lowers ⟨counters, KeySet.empty⟩ ((ready next nodes).flatMap prev) later := by
  apply Countdown.exists_lowers_of_count_le
  intro node hnode
  have hwaiting := hfits.mem_waiting_of_mem_flatMap hinverse hnode
  refine ⟨_, hfits.counters node (hfits.lt_size (mem_waiting.mp hwaiting).1), ?_⟩
  rw [hinverse.count_flatMap hfits.nodup_ready, countP_mem_eq_add next nodes]
  exact Nat.le_add_right _ _

theorem waiting_of_lowers (hinverse : AreInverse next prev)
    (hfits : Fits next size counters nodes) {later : Countdown}
    (hlowers : Countdown.Lowers ⟨counters, KeySet.empty⟩ ((ready next nodes).flatMap prev) later) :
    Fits next size later.counters (waiting next nodes) where
  sublist := List.filter_sublist.trans hfits.sublist
  before node other hother hwaiting := by
    have hmem := (mem_waiting.mp hwaiting).1
    exact mem_waiting_iff_exists.mpr ⟨hfits.before node other hother hmem, other, hother, hmem⟩
  counters node hnode := by
    rw [hlowers.counters, hfits.counters node hnode, Option.map_some,
      hinverse.count_flatMap hfits.nodup_ready, countP_mem_eq_add next nodes,
      Nat.add_sub_cancel_left]

/-- What a round frees are the nodes that are ready after it. -/
theorem freed_of_lowers (hinverse : AreInverse next prev)
    (hfits : Fits next size counters nodes) {later : Countdown}
    (hlowers : Countdown.Lowers ⟨counters, KeySet.empty⟩
      ((ready next nodes).flatMap prev) later) :
    later.freed.toList = ready next (waiting next nodes) := by
  have hascending : (ready next (waiting next nodes)).Pairwise (· < ·) :=
    List.pairwise_lt_range.sublist
      ((List.filter_sublist.trans List.filter_sublist).trans hfits.sublist)
  refine KeySet.eq_of_mem_iff later.freed.ascending hascending fun node => ?_
  have hcount : node < size → (counters[node]? =
      some ((next node).countP (· ∈ ready next nodes)) ↔
        ∀ other ∈ next node, other ∉ waiting next nodes) := by
    intro hnode
    rw [hfits.counters node hnode, Option.some.injEq, countP_mem_eq_add next nodes,
      Nat.add_eq_left, List.countP_eq_zero]
    simp only [decide_eq_true_eq]
  rw [← KeySet.mem_def, hlowers.freed, or_iff_right (KeySet.not_mem_empty node), mem_ready,
    hinverse.count_flatMap hfits.nodup_ready]
  constructor
  · rintro ⟨hbefore, hlast⟩
    have hwaiting := hfits.mem_waiting_of_mem_flatMap hinverse hbefore
    exact ⟨hwaiting, (hcount (hfits.lt_size (mem_waiting.mp hwaiting).1)).mp hlast⟩
  · rintro ⟨hwaiting, hlast⟩
    obtain ⟨hnode, other, hother, hplace⟩ := mem_waiting_iff_exists.mp hwaiting
    refine ⟨List.mem_flatMap.mpr ⟨other, ?_, hinverse.mem_iff.mpr hother⟩,
      (hcount (hfits.lt_size hnode)).mpr hlast⟩
    by_contra hready
    exact hlast other hother (mem_waiting.mpr ⟨hplace, hready⟩)

end Fits

/-- While the counters fit the nodes to be placed, counting down from those that are ready
comes to the layers that peeling comes to. -/
theorem Fits.countDown?_eq (hinverse : AreInverse next prev)
    (htable : ∀ node < size, table[node]? = some (prev node))
    (hfits : Fits next size counters nodes) :
    countDown? table counters (ready next nodes) = some (peel next nodes) := by
  fun_induction peel next nodes generalizing counters with
  | case1 nodes hempty => rw [countDown?.eq_def, if_pos hempty]
  | case2 nodes hready ih =>
      obtain ⟨later, hfold, hlowers⟩ := hfits.exists_lowers hinverse
      have hround : (ready next nodes).foldlM (Countdown.place? table) ⟨counters, KeySet.empty⟩ =
          some later := by
        rw [Countdown.foldlM_place?_eq fun node hnode =>
          htable node (hfits.lt_size (mem_ready.mp hnode).1)]
        exact hfold
      have hrest := ih (hfits.waiting_of_lowers hinverse hlowers)
      rw [countDown?.eq_def, if_neg hready]
      split
      case h_1 hnone => cases hnone.symm.trans hround
      case h_2 countdown hsome =>
        obtain rfl := Option.some.inj (hsome.symm.trans hround)
        rw [hfits.freed_of_lowers hinverse hlowers, hrest, Option.map_some]

end Rounds

end TickWaves.Layers
