import Mathlib.Data.Finset.Card
import Mathlib.Order.Bounds.Basic
import TickWaves.Proofs.Graph.Layering

/-!
# Layers are as few and as late as the edges allow

Every edge leads at least one layer on, and from every layer but the last some edge leads
exactly one layer on.  So the layers that follow a node are as many as the edges of the
longest path from it (`Graph.isDepth_of_getElem?_layers`).  Any assignment of layers in which
the edges go forward needs a new layer for every node of a path
(`Graph.RunsForward.length_le_card`), so none has fewer layers, and none with as many has a
node in a later one (`Graph.RunsForward.add_length_lt`).
-/

namespace TickWaves

universe u

namespace Graph

variable {graph : Graph}

/-- A path of the graph: an edge leads from every node to the one after it. -/
structure IsPath (graph : Graph) (path : List Nat) : Prop where
  inside : ∀ node ∈ path, node < graph.size
  chain : path.IsChain graph.Leads

/-- The longest path that starts at a node has so many edges. -/
def IsDepth (graph : Graph) (node depth : Nat) : Prop :=
  IsGreatest {edges | ∃ rest, graph.IsPath (node :: rest) ∧ rest.length = edges} depth

def RunsForward (graph : Graph) (place : Nat → Nat) : Prop :=
  ∀ before after, graph.Leads before after → place before < place after

theorem IsPath.of_cons {node : Nat} {rest : List Nat} (hpath : graph.IsPath (node :: rest)) :
    graph.IsPath rest where
  inside other hother := hpath.inside other (List.mem_cons_of_mem _ hother)
  chain := hpath.chain.tail

theorem IsAcyclic.exists_layer (hacyclic : graph.IsAcyclic) (hscoped : graph.IsScoped)
    {node : Nat} (hnode : node < graph.size) :
    ∃ (index : Nat) (layer : List Nat), graph.layers[index]? = some layer ∧ node ∈ layer := by
  have hmem : node ∈ graph.layers.flatten :=
    (hacyclic.flatten_layers_perm hscoped).mem_iff.mpr (List.mem_range.mpr hnode)
  obtain ⟨layer, hlayer, hnode⟩ := List.mem_flatten.mp hmem
  obtain ⟨index, hindex⟩ := List.getElem?_of_mem hlayer
  exact ⟨index, layer, hindex, hnode⟩

theorem lt_size_of_mem_layers (hscoped : graph.IsScoped) {layer : List Nat}
    (hlayer : layer ∈ graph.layers) {node : Nat} (hnode : node ∈ layer) :
    node < graph.size := by
  rw [hscoped.layers_eq] at hlayer
  exact List.mem_range.mp ((Layers.sublist_of_mem_peel hlayer).subset hnode)

/-- A path from a node has at most as many edges as layers follow. -/
theorem length_lt_of_isPath (hscoped : graph.IsScoped) {rest layer : List Nat}
    {index node : Nat} (hlayer : graph.layers[index]? = some layer) (hnode : node ∈ layer)
    (hpath : graph.IsPath (node :: rest)) : index + rest.length < graph.layers.length := by
  induction rest generalizing index node layer with
  | nil => exact (List.getElem?_eq_some_iff.mp hlayer).1
  | cons other rest ih =>
      have hleads := (List.isChain_cons_cons.mp hpath.chain).1
      obtain ⟨later, target, hlt, htarget, hmem⟩ :=
        exists_later_layer hscoped hlayer hnode hleads
      have hbound := ih htarget hmem hpath.of_cons
      rw [List.length_cons]
      omega

/-- From a node, some path goes through all the layers that follow. -/
theorem exists_isPath_of_getElem?_layers (hscoped : graph.IsScoped) {layer : List Nat}
    {index count node : Nat} (hlayer : graph.layers[index]? = some layer)
    (hnode : node ∈ layer) (hcount : index + count + 1 = graph.layers.length) :
    ∃ rest, graph.IsPath (node :: rest) ∧ rest.length = count := by
  have hinside := lt_size_of_mem_layers hscoped (List.mem_of_getElem? hlayer) hnode
  induction count generalizing index node layer with
  | zero => exact ⟨[], ⟨by simpa using hinside, .singleton node⟩, rfl⟩
  | succ count ih =>
      obtain ⟨other, hleads, target, htarget, hother⟩ :=
        exists_next_layer hscoped hlayer hnode (by omega)
      obtain ⟨rest, hpath, hlength⟩ :=
        ih htarget hother (by omega) (hscoped node other hleads).2
      refine ⟨other :: rest, ⟨?_, ?_⟩, by rw [List.length_cons, hlength]⟩
      · exact List.forall_mem_cons.mpr ⟨hinside, hpath.inside⟩
      · exact List.isChain_cons_cons.mpr ⟨hleads, hpath.chain⟩

/-- The layers that follow a node are as many as the edges of the longest path from it. -/
theorem isDepth_of_getElem?_layers (hscoped : graph.IsScoped) {layer : List Nat}
    {index node : Nat} (hlayer : graph.layers[index]? = some layer) (hnode : node ∈ layer) :
    graph.IsDepth node (graph.layers.length - 1 - index) := by
  have hindex := (List.getElem?_eq_some_iff.mp hlayer).1
  constructor
  · exact exists_isPath_of_getElem?_layers hscoped hlayer hnode (by omega)
  · rintro edges ⟨rest, hpath, rfl⟩
    have hlt := length_lt_of_isPath hscoped hlayer hnode hpath
    omega

/-- No path has more nodes than there are layers, and some path has as many. -/
theorem IsAcyclic.isGreatest_length_layers (hacyclic : graph.IsAcyclic)
    (hscoped : graph.IsScoped) :
    IsGreatest {count | ∃ path, graph.IsPath path ∧ path.length = count}
      graph.layers.length := by
  constructor
  · cases hfirst : graph.layers[0]? with
    | none =>
        have hnone := List.getElem?_eq_none_iff.mp hfirst
        exact ⟨[], ⟨by simp, .nil⟩, by rw [List.length_nil]; omega⟩
    | some layer =>
        have hpos := (List.getElem?_eq_some_iff.mp hfirst).1
        obtain ⟨node, hnode⟩ := List.exists_mem_of_ne_nil layer
          (ne_nil_of_mem_layers hscoped (List.mem_of_getElem? hfirst))
        have hcount : 0 + (graph.layers.length - 1) + 1 = graph.layers.length := by omega
        obtain ⟨rest, hpath, hlength⟩ :=
          exists_isPath_of_getElem?_layers hscoped hfirst hnode hcount
        exact ⟨node :: rest, hpath, by rw [List.length_cons]; omega⟩
  · rintro count ⟨path, hpath, rfl⟩
    cases path with
    | nil => exact Nat.zero_le _
    | cons node rest =>
        obtain ⟨index, layer, hlayer, hnode⟩ :=
          hacyclic.exists_layer hscoped (hpath.inside node List.mem_cons_self)
        have hlt := length_lt_of_isPath hscoped hlayer hnode hpath
        rw [List.length_cons]
        omega

namespace RunsForward

variable {place : Nat → Nat}

/-- Along a path, an assignment gives every node a later layer than the one before. -/
theorem pairwise_of_isPath (hforward : graph.RunsForward place) {path : List Nat}
    (hpath : graph.IsPath path) : (path.map place).Pairwise (· < ·) := by
  rw [← List.isChain_iff_pairwise, List.isChain_map]
  exact hpath.chain.imp hforward

/-- An assignment needs as many layers as a path has nodes. -/
theorem length_le_card (hforward : graph.RunsForward place) {path : List Nat}
    (hpath : graph.IsPath path) :
    path.length ≤ ((Finset.range graph.size).image place).card := by
  have hdistinct : (path.map place).Nodup := (hforward.pairwise_of_isPath hpath).nodup
  have hsub : (path.map place).toFinset ⊆ (Finset.range graph.size).image place := by
    intro value hvalue
    obtain ⟨node, hnode, rfl⟩ := List.mem_map.mp (List.mem_toFinset.mp hvalue)
    exact Finset.mem_image_of_mem _ (Finset.mem_range.mpr (hpath.inside node hnode))
  calc
    path.length = (path.map place).toFinset.card := by
      rw [List.toFinset_card_of_nodup hdistinct, List.length_map]
    _ ≤ ((Finset.range graph.size).image place).card := Finset.card_le_card hsub

/-- A node that a path starts at is at least as far from the last layer as the path is
long. -/
theorem add_length_lt (hforward : graph.RunsForward place) {bound node : Nat}
    {rest : List Nat} (hbound : ∀ node < graph.size, place node < bound)
    (hpath : graph.IsPath (node :: rest)) : place node + rest.length < bound := by
  induction rest generalizing node with
  | nil => exact hbound node (hpath.inside node List.mem_cons_self)
  | cons other rest ih =>
      have hstep := hforward node other (List.isChain_cons_cons.mp hpath.chain).1
      have hrest := ih hpath.of_cons
      rw [List.length_cons]
      omega

end RunsForward

/-- The layers are found without fail, hold every node once, and are the latest and the
fewest: what follows the layer of a node is as long as the longest path from the node, no
assignment in which the edges go forward makes do with fewer layers, and none with as many
has a node in a later one. -/
structure IsLatestLayering (graph : Graph) : Prop where
  /-- No counter is lowered below zero, and no look-up misses. -/
  counted : graph.layers? = some graph.layers
  placed_once : graph.layers.flatten.Perm (List.range graph.size)
  place_eq : ∀ node < graph.size, ∃ depth layer, graph.IsDepth node depth ∧
    depth < graph.layers.length ∧
      graph.layers[graph.layers.length - 1 - depth]? = some layer ∧ node ∈ layer
  longest : IsGreatest {count | ∃ path, graph.IsPath path ∧ path.length = count}
    graph.layers.length
  fewest : ∀ place, graph.RunsForward place →
    graph.layers.length ≤ ((Finset.range graph.size).image place).card
  latest : ∀ place, graph.RunsForward place →
    (∀ node < graph.size, place node < graph.layers.length) →
      ∀ index layer, graph.layers[index]? = some layer → ∀ node ∈ layer, place node ≤ index

variable {β : Type u} {systems : List (Descriptor β)}
variable {pairs : List (SystemPair systems.length)} {tags : TagOrder}

theorem isLatestLayering_of_build (hbuild : build systems pairs tags = .ok graph) :
    graph.IsLatestLayering := by
  obtain ⟨rfl, hacyclic⟩ := build_eq_ok hbuild
  have hscoped : (assembled systems pairs tags).IsScoped := isScoped_assembled
  have hlongest := hacyclic.isGreatest_length_layers hscoped
  refine ⟨?_, hacyclic.flatten_layers_perm hscoped, ?_, hlongest, ?_, ?_⟩
  · rw [hscoped.layers_eq, hscoped.layers?_eq]
  · intro node hnode
    obtain ⟨index, layer, hlayer, hmem⟩ := hacyclic.exists_layer hscoped hnode
    have hindex := (List.getElem?_eq_some_iff.mp hlayer).1
    refine ⟨_, layer, isDepth_of_getElem?_layers hscoped hlayer hmem, by omega, ?_, hmem⟩
    rw [← hlayer]
    congr 1
    omega
  · intro place hforward
    obtain ⟨path, hpath, hlength⟩ := hlongest.1
    rw [← hlength]
    exact hforward.length_le_card hpath
  · intro place hforward hbound index layer hlayer node hnode
    have hindex := (List.getElem?_eq_some_iff.mp hlayer).1
    obtain ⟨rest, hpath, hlength⟩ := (isDepth_of_getElem?_layers hscoped hlayer hnode).1
    have hlt := hforward.add_length_lt hbound hpath
    omega

/-- A chain of three, and a fourth system that only the last of the chain waits for. -/
def branch : List (Descriptor Unit) :=
  ["read", "plan", "write", "lookup"].map fun name => Descriptor.ofBody name ()

def branchPairs : List (SystemPair branch.length) :=
  [(0, 1), (1, 2), (3, 2)].filterMap fun (first, second) =>
    SystemPair.ofNats? branch.length first second

/-- The side branch waits for the layer right before its successor's. -/
theorem isLatestLayering_of_build_branch :
    ∃ graph, build branch branchPairs TagOrder.empty = .ok graph ∧
      graph.layers = [[0], [1, 3], [2]] ∧ graph.IsLatestLayering := by
  have hlayers : (build branch branchPairs TagOrder.empty).toOption.map layers =
      some [[0], [1, 3], [2]] := by decide +kernel
  cases hbuild : build branch branchPairs TagOrder.empty with
  | error dependency =>
      rw [hbuild] at hlayers
      cases hlayers
  | ok graph =>
      rw [hbuild] at hlayers
      exact ⟨graph, rfl, Option.some.inj hlayers, isLatestLayering_of_build hbuild⟩

end Graph

end TickWaves
