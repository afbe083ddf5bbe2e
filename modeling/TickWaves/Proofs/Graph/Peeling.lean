import Mathlib.Data.List.Basic
import Mathlib.Data.Set.Finite.List
import Mathlib.Logic.Relation
import Mathlib.Order.WellFounded

/-!
# Peeling off the nodes without successors

A list of nodes falls into those that have no successor in it (`Layers.ready`) and the
others (`Layers.waiting`).  Peeling takes off the ready ones, round by round, and puts them
before the layers peeled so far.  Without cycles some node is ready in every round, so
nothing is left over, and an edge always goes from one layer to a later one.
-/

namespace TickWaves.Layers

open Relation

/-- The nodes of a list without a successor in it. -/
def ready (next : Nat → List Nat) (nodes : List Nat) : List Nat :=
  nodes.filter fun node => (next node).all fun other => !nodes.contains other

def waiting (next : Nat → List Nat) (nodes : List Nat) : List Nat :=
  nodes.filter fun node => !(next node).all fun other => !nodes.contains other

theorem length_ready_add_length_waiting (next : Nat → List Nat) (nodes : List Nat) :
    (ready next nodes).length + (waiting next nodes).length = nodes.length :=
  (List.length_eq_length_filter_add _).symm

/-- The layers of a list of nodes, first layer first.  Nodes on a cycle, and those that
come before one, are in no layer. -/
def peel (next : Nat → List Nat) (nodes : List Nat) : List (List Nat) :=
  if (ready next nodes).isEmpty then []
  else peel next (waiting next nodes) ++ [ready next nodes]
termination_by nodes.length
decreasing_by
  rename_i hready
  have hlength := length_ready_add_length_waiting next nodes
  have hpos : 0 < (ready next nodes).length := by
    cases hnodes : ready next nodes with
    | nil => simp [hnodes] at hready
    | cons node rest => simp
  omega

variable {next : Nat → List Nat} {nodes : List Nat}

theorem mem_ready {node : Nat} :
    node ∈ ready next nodes ↔ node ∈ nodes ∧ ∀ other ∈ next node, other ∉ nodes := by
  simp [ready, List.all_eq_true]

theorem mem_waiting {node : Nat} :
    node ∈ waiting next nodes ↔ node ∈ nodes ∧ node ∉ ready next nodes := by
  simp only [waiting, ready, List.mem_filter, Bool.not_eq_true']
  constructor
  · rintro ⟨hnode, hfail⟩
    exact ⟨hnode, fun hready => Bool.eq_false_iff.mp hfail hready.2⟩
  · rintro ⟨hnode, hnot⟩
    exact ⟨hnode, Bool.eq_false_iff.mpr fun hpass => hnot ⟨hnode, hpass⟩⟩

theorem mem_waiting_iff_exists {node : Nat} :
    node ∈ waiting next nodes ↔ node ∈ nodes ∧ ∃ other ∈ next node, other ∈ nodes := by
  rw [mem_waiting, mem_ready, not_and, and_congr_right_iff]
  intro hnode
  simp only [hnode, true_implies, not_forall, not_not, exists_prop]

theorem ready_append_waiting_perm :
    (ready next nodes ++ waiting next nodes).Perm nodes :=
  List.filter_append_perm _ _

/-- Among finitely many nodes without a cycle, some node has no successor. -/
theorem ready_ne_nil
    (hacyclic : ∀ node, ¬ TransGen (fun node other => other ∈ next node) node node)
    (hnodes : nodes ≠ []) : ready next nodes ≠ [] := by
  let Later (left right : {node // node ∈ nodes}) : Prop :=
    TransGen (fun node other => other ∈ next node) right.1 left.1
  have htrans : IsTrans _ Later := ⟨fun _ _ _ hleft hright => hright.trans hleft⟩
  have hirrefl : Std.Irrefl Later := ⟨fun node => hacyclic node.1⟩
  have hfinite : Finite {node // node ∈ nodes} := nodes.finite_toSet
  have hwf : WellFounded Later := Finite.wellFounded_of_trans_of_irrefl Later
  obtain ⟨first, hfirst⟩ := List.exists_mem_of_ne_nil nodes hnodes
  obtain ⟨last, -, hlast⟩ := hwf.has_min Set.univ ⟨⟨first, hfirst⟩, trivial⟩
  refine List.ne_nil_of_mem (mem_ready.mpr ⟨last.2, fun other hother hmem => ?_⟩)
  exact hlast ⟨other, hmem⟩ trivial (.single hother)

theorem ne_nil_of_mem_peel {layer : List Nat} (hlayer : layer ∈ peel next nodes) :
    layer ≠ [] := by
  fun_induction peel next nodes with
  | case1 nodes => cases hlayer
  | case2 nodes hready ih =>
      rcases List.mem_append.mp hlayer with hearlier | hlast
      · exact ih hearlier
      · obtain rfl := List.mem_singleton.mp hlast
        simpa using hready

theorem sublist_of_mem_peel {layer : List Nat} (hlayer : layer ∈ peel next nodes) :
    layer.Sublist nodes := by
  fun_induction peel next nodes with
  | case1 nodes => cases hlayer
  | case2 nodes hready ih =>
      rcases List.mem_append.mp hlayer with hearlier | hlast
      · exact (ih hearlier).trans List.filter_sublist
      · obtain rfl := List.mem_singleton.mp hlast
        exact List.filter_sublist

theorem flatten_peel_perm
    (hacyclic : ∀ node, ¬ TransGen (fun node other => other ∈ next node) node node) :
    (peel next nodes).flatten.Perm nodes := by
  fun_induction peel next nodes with
  | case1 nodes hempty =>
      have hnil : nodes = [] := by
        by_contra hnodes
        exact ready_ne_nil hacyclic hnodes (List.isEmpty_iff.mp hempty)
      rw [hnil, List.flatten_nil]
  | case2 nodes hready ih =>
      rw [List.flatten_append, List.flatten_singleton]
      calc
        ((peel next (waiting next nodes)).flatten ++ ready next nodes).Perm
            (waiting next nodes ++ ready next nodes) := ih.append_right _
        List.Perm _ (ready next nodes ++ waiting next nodes) := List.perm_append_comm
        List.Perm _ nodes := ready_append_waiting_perm

/-- A successor of a node in some layer lies in a later layer. -/
theorem exists_later_of_getElem?_peel {layer : List Nat} {index node other : Nat}
    (hlayer : (peel next nodes)[index]? = some layer) (hnode : node ∈ layer)
    (hstep : other ∈ next node) (hother : other ∈ nodes) :
    ∃ later target, index < later ∧ (peel next nodes)[later]? = some target ∧
      other ∈ target := by
  fun_induction peel next nodes generalizing index with
  | case1 nodes => cases hlayer
  | case2 nodes hready ih =>
      rcases Nat.lt_or_ge index (peel next (waiting next nodes)).length with hlt | hge
      · rw [List.getElem?_append_left hlt] at hlayer
        by_cases hlast : other ∈ ready next nodes
        · exact ⟨_, ready next nodes, hlt, List.getElem?_concat_length, hlast⟩
        · obtain ⟨later, target, hbefore, htarget, hmem⟩ :=
            ih hlayer (mem_waiting.mpr ⟨hother, hlast⟩)
          have hbound := (List.getElem?_eq_some_iff.mp htarget).1
          exact ⟨later, target, hbefore,
            (List.getElem?_append_left hbound).trans htarget, hmem⟩
      · have hlast : layer = ready next nodes := by
          rw [List.getElem?_append_right hge] at hlayer
          exact List.mem_singleton.mp (List.mem_of_getElem? hlayer)
        rw [hlast] at hnode
        exact absurd hother ((mem_ready.mp hnode).2 other hstep)

theorem eq_ready_of_getElem?_peel {layer : List Nat} {index : Nat}
    (hlayer : (peel next nodes)[index]? = some layer)
    (hlast : index + 1 = (peel next nodes).length) : layer = ready next nodes := by
  rw [peel] at hlayer hlast
  split at hlayer
  · cases hlayer
  · rename_i hready
    rw [if_neg hready, List.length_append, List.length_singleton,
      Nat.add_right_cancel_iff] at hlast
    rw [hlast, List.getElem?_concat_length] at hlayer
    exact (Option.some.inj hlayer).symm

/-- A node of any layer but the last one has a successor in the very next one. -/
theorem exists_next_of_getElem?_peel {layer : List Nat} {index node : Nat}
    (hlayer : (peel next nodes)[index]? = some layer) (hnode : node ∈ layer)
    (hindex : index + 1 < (peel next nodes).length) :
    ∃ other ∈ next node, ∃ target, (peel next nodes)[index + 1]? = some target ∧
      other ∈ target := by
  fun_induction peel next nodes generalizing index with
  | case1 nodes => cases hlayer
  | case2 nodes hready ih =>
      rw [List.length_append, List.length_singleton, Nat.add_lt_add_iff_right] at hindex
      rw [List.getElem?_append_left hindex] at hlayer
      rcases Nat.lt_or_ge (index + 1) (peel next (waiting next nodes)).length with hlt | hge
      · obtain ⟨other, hother, target, htarget, hmem⟩ := ih hlayer hlt
        exact ⟨other, hother, target, (List.getElem?_append_left hlt).trans htarget, hmem⟩
      · -- The node has no successor left, but it had one before the last layer was taken off.
        have hlast : index + 1 = (peel next (waiting next nodes)).length := by omega
        rw [eq_ready_of_getElem?_peel hlayer hlast] at hnode
        obtain ⟨hwaiting, hnone⟩ := mem_ready.mp hnode
        obtain ⟨-, other, hother, hmem⟩ := mem_waiting_iff_exists.mp hwaiting
        refine ⟨other, hother, ready next nodes, ?_, ?_⟩
        · rw [hlast, List.getElem?_concat_length]
        · by_contra hready
          exact hnone other hother (mem_waiting.mpr ⟨hmem, hready⟩)

end TickWaves.Layers
