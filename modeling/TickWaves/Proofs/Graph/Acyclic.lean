import Mathlib.Data.List.Perm.Subperm
import TickWaves.Proofs.Graph.Edges

/-!
# A graph that passes the search has no cycle

A search that ends clear has finished its nodes in an order in which the successors of
every node were finished before the node itself (`Cycle.Downward`).  Such an order leaves
no room for a cycle, so whatever `Graph.build` accepts is acyclic.
-/

namespace TickWaves

open Relation

universe u

namespace Cycle

/-- The successors of every node of the list come after it in the list. -/
def Downward (next : Nat → List Nat) : List Nat → Prop
  | [] => True
  | node :: rest => (∀ other ∈ next node, other ∈ rest) ∧ Downward next rest

theorem Downward.mem_of_reflTransGen {next : Nat → List Nat} {nodes : List Nat}
    (hdown : Downward next nodes) {node other : Nat} (hnode : node ∈ nodes)
    (hchain : ReflTransGen (fun node other => other ∈ next node) node other) :
    other ∈ nodes := by
  have hclosed : ∀ {nodes : List Nat}, Downward next nodes →
      ∀ node ∈ nodes, ∀ other ∈ next node, other ∈ nodes := by
    intro nodes hdown
    induction nodes with
    | nil => simp
    | cons head rest ih =>
        intro node hnode other hother
        rcases List.mem_cons.mp hnode with rfl | hrest
        · exact List.mem_cons_of_mem _ (hdown.1 other hother)
        · exact List.mem_cons_of_mem _ (ih hdown.2 node hrest other hother)
  induction hchain with
  | refl => exact hnode
  | tail _ hstep ih => exact hclosed hdown _ ih _ hstep

theorem Downward.not_transGen_self {next : Nat → List Nat} {nodes : List Nat}
    (hdown : Downward next nodes) {node : Nat} (hnode : node ∈ nodes) :
    ¬ TransGen (fun node other => other ∈ next node) node node := by
  induction nodes with
  | nil => cases hnode
  | cons head rest ih =>
      intro hcycle
      rcases List.mem_cons.mp hnode with rfl | hrest
      · -- The first step goes down into the rest, and the rest is never left again.
        obtain ⟨other, hstep, hback⟩ := TransGen.head'_iff.mp hcycle
        have hrest := hdown.2.mem_of_reflTransGen (hdown.1 other hstep) hback
        exact ih hdown.2 hrest hcycle
      · exact ih hdown.2 hrest hcycle

theorem foldl_andThen_cycle (step : List Nat → Nat → Search) (others nodes : List Nat) :
    others.foldl (fun (found : Search) other =>
        found.andThen fun finished => step finished other) (.cycle nodes) = .cycle nodes := by
  induction others with
  | nil => rfl
  | cons other others ih => exact ih

/-- If every step of a run of searches keeps the finished nodes in order, adds to them and
finishes its own node, then the whole run does so for all its nodes. -/
theorem downward_of_foldl_eq_clear {next : Nat → List Nat} {step : List Nat → Nat → Search}
    {others finished result : List Nat}
    (hstep : ∀ other ∈ others, ∀ finished result, Downward next finished →
      step finished other = .clear result →
        Downward next result ∧ other ∈ result ∧ finished ⊆ result)
    (hdown : Downward next finished)
    (hfold : others.foldl (fun (found : Search) other =>
        found.andThen fun finished => step finished other) (.clear finished)
      = .clear result) :
    Downward next result ∧ others ⊆ result ∧ finished ⊆ result := by
  induction others generalizing finished with
  | nil =>
      obtain rfl : finished = result := Search.clear.inj hfold
      exact ⟨hdown, List.nil_subset _, List.Subset.refl _⟩
  | cons other others ih =>
      rw [List.foldl_cons, Search.clear_andThen] at hfold
      cases hfound : step finished other with
      | cycle nodes =>
          rw [hfound, foldl_andThen_cycle] at hfold
          cases hfold
      | clear middle =>
          rw [hfound] at hfold
          obtain ⟨hmiddle, hother, hgrow⟩ :=
            hstep other List.mem_cons_self finished middle hdown hfound
          obtain ⟨hresult, hothers, hgrow'⟩ :=
            ih (fun other hmem => hstep other (List.mem_cons_of_mem _ hmem)) hmiddle hfold
          exact ⟨hresult, List.cons_subset.mpr ⟨hgrow' hother, hothers⟩,
            List.Subset.trans hgrow hgrow'⟩

/-- The room never runs out while the path can still grow. -/
theorem length_lt_of_not_mem_path {nodes path : List Nat} {node : Nat}
    (hnodup : path.Nodup) (hpath : path ⊆ nodes) (hnode : node ∈ nodes)
    (hfresh : node ∉ path) : path.length < nodes.length := by
  have hextended : (node :: path).Nodup := List.nodup_cons.mpr ⟨hfresh, hnodup⟩
  exact (List.subperm_of_subset hextended (List.cons_subset.mpr ⟨hnode, hpath⟩)).length_le

theorem downward_of_visit_eq_clear {next : Nat → List Nat} {nodes : List Nat}
    (hnext : ∀ node, next node ⊆ nodes) {room : Nat} {path finished result : List Nat}
    {node : Nat} (hnodup : path.Nodup) (hpath : path ⊆ nodes) (hnode : node ∈ nodes)
    (hfresh : node ∉ path) (hroom : nodes.length ≤ room + path.length)
    (hdown : Downward next finished)
    (hvisit : visit next room path finished node = .clear result) :
    Downward next result ∧ node ∈ result ∧ finished ⊆ result := by
  induction room generalizing path finished result node with
  | zero =>
      have hlt := length_lt_of_not_mem_path hnodup hpath hnode hfresh
      omega
  | succ room ih =>
      simp only [visit] at hvisit
      cases hfound : (next node).foldl (fun (found : Search) other =>
          found.andThen fun finished =>
            if other ∈ node :: path then .cycle (closedBy other (node :: path))
            else if other ∈ finished then .clear finished
            else visit next room (node :: path) finished other) (.clear finished) with
      | cycle nodes =>
          rw [hfound] at hvisit
          cases hvisit
      | clear middle =>
          rw [hfound, Search.clear_andThen] at hvisit
          obtain rfl : node :: middle = result := Search.clear.inj hvisit
          have hkept : Downward next middle ∧ next node ⊆ middle ∧ finished ⊆ middle := by
            apply downward_of_foldl_eq_clear _ hdown hfound
            intro other hother finished result hdown hstep
            split at hstep
            · cases hstep
            rename_i hoff
            split at hstep
            · rename_i hdone
              obtain rfl : finished = result := Search.clear.inj hstep
              exact ⟨hdown, hdone, List.Subset.refl _⟩
            · apply ih (List.nodup_cons.mpr ⟨hfresh, hnodup⟩)
                (List.cons_subset.mpr ⟨hnode, hpath⟩) (hnext node hother) hoff _ hdown hstep
              rw [List.length_cons]
              omega
          obtain ⟨hmiddle, hothers, hgrow⟩ := hkept
          exact ⟨⟨hothers, hmiddle⟩, List.mem_cons_self, List.subset_cons_of_subset _ hgrow⟩

theorem downward_of_search_eq_clear {next : Nat → List Nat} {nodes result : List Nat}
    (hnext : ∀ node, next node ⊆ nodes)
    (hsearch : search next nodes.length nodes = .clear result) :
    Downward next result ∧ nodes ⊆ result := by
  have hkept := downward_of_foldl_eq_clear ?_ (show Downward next [] from trivial) hsearch
  · exact ⟨hkept.1, hkept.2.1⟩
  · intro node hnode finished result hdown hstep
    split at hstep
    · rename_i hdone
      obtain rfl : finished = result := Search.clear.inj hstep
      exact ⟨hdown, hdone, List.Subset.refl _⟩
    · exact downward_of_visit_eq_clear hnext List.nodup_nil (List.nil_subset _) hnode
        List.not_mem_nil (Nat.le_refl _) hdown hstep

end Cycle

namespace Graph

variable {β : Type u}

/-- All edges join nodes of the graph. -/
def IsScoped (graph : Graph) : Prop :=
  ∀ before after, graph.Leads before after → before < graph.size ∧ after < graph.size

def IsAcyclic (graph : Graph) : Prop :=
  ∀ node, ¬ TransGen graph.Leads node node

theorem isScoped_assembled {systems : List (Descriptor β)}
    {pairs : List (SystemPair systems.length)} {tags : TagOrder} :
    (assembled systems pairs tags).IsScoped := by
  intro before after hleads
  obtain ⟨first, second, rfl, rfl⟩ := fin_of_leads_assembled hleads
  rw [size_assembled]
  exact ⟨first.isLt, second.isLt⟩

/-- The table of successors holds the successors of every node. -/
theorem IsScoped.getD_successorTable {graph : Graph} (hscoped : graph.IsScoped) :
    (fun node => graph.successorTable.getD node []) = graph.successors := by
  funext node
  by_cases hnode : node < graph.size
  · simp [successorTable, hnode]
  · have hnone : graph.successors node = [] := by
      refine List.eq_nil_iff_forall_not_mem.mpr fun other hother => ?_
      exact hnode (hscoped node other (mem_successors.mp hother)).1
    simp [successorTable, hnode, hnone]

theorem IsScoped.successors_subset {graph : Graph} (hscoped : graph.IsScoped) (node : Nat) :
    graph.successors node ⊆ List.range graph.size := by
  intro other hother
  exact List.mem_range.mpr (hscoped node other (mem_successors.mp hother)).2

theorem IsScoped.isAcyclic_of_cycle?_eq_none {graph : Graph} (hscoped : graph.IsScoped)
    (hclear : graph.cycle? = none) : graph.IsAcyclic := by
  rw [cycle?, hscoped.getD_successorTable] at hclear
  split at hclear
  · cases hclear
  rename_i finished hsearch
  have hroom : Cycle.search graph.successors (List.range graph.size).length
      (List.range graph.size) = .clear finished := by
    rw [List.length_range]
    exact hsearch
  have hdown := Cycle.downward_of_search_eq_clear hscoped.successors_subset hroom
  intro node hcycle
  have hrel : (fun node other => other ∈ graph.successors node) = graph.Leads := by
    funext node other
    exact propext mem_successors
  obtain ⟨last, -, hlast⟩ := TransGen.tail'_iff.mp hcycle
  have hmem := hdown.2 (List.mem_range.mpr (hscoped last node hlast).2)
  refine hdown.1.not_transGen_self hmem ?_
  rw [hrel]
  exact hcycle

/-- What is accepted is the assembled graph, and it has no cycle. -/
theorem build_eq_ok {systems : List (Descriptor β)}
    {pairs : List (SystemPair systems.length)} {tags : TagOrder} {graph : Graph}
    (hbuild : build systems pairs tags = .ok graph) :
    graph = assembled systems pairs tags ∧ graph.IsAcyclic := by
  simp only [build] at hbuild
  split at hbuild
  · cases hbuild
  rename_i hclear
  obtain rfl := Except.ok.inj hbuild
  exact ⟨rfl, isScoped_assembled.isAcyclic_of_cycle?_eq_none hclear⟩

end Graph

end TickWaves
