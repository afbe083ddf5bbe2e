import Mathlib.Data.List.FinRange
import Mathlib.Data.List.Sort
import TickWaves.Proofs.Plan.Bindings

/-!
# The edges are listed in order

A graph lists its edges by the position that goes first and then by the one that waits, and
none of them twice.  So the graph of a list of systems is known as soon as one knows who the
systems are and what binds them (`Graph.ofSystems_eq_of_binds_iff`): neither the order in
which the pairs in conflict are found nor that in which the tags are gone through can be seen
in it.
-/

namespace TickWaves

universe u

variable {β : Type u}

def Edge.IsAhead (edge other : Edge) : Prop :=
  edge.before < other.before ∨ (edge.before = other.before ∧ edge.after < other.after)

instance : Std.Irrefl Edge.IsAhead where
  irrefl edge hahead := by
    rw [Edge.IsAhead] at hahead
    omega

instance : Std.Antisymm Edge.IsAhead where
  antisymm edge other hahead hahead' := by
    rw [Edge.IsAhead] at hahead hahead'
    omega

namespace Graph

section Assembled

variable {systems : List (Descriptor β)} {tags : TagOrder}

/-- Edges from one position are listed in the order of the positions they lead to. -/
theorem pairwise_isAhead_filterMap {count first : Nat} {edge? : Fin count → Option Edge}
    (hends : ∀ second edge, edge? second = some edge → edge.before = first ∧ edge.after = second) :
    ((List.finRange count).filterMap edge?).Pairwise Edge.IsAhead := by
  rw [List.pairwise_filterMap]
  apply (List.pairwise_lt_finRange count).imp
  intro second second' hlt edge hedge edge' hedge'
  obtain ⟨hbefore, hafter⟩ := hends second edge hedge
  obtain ⟨hbefore', hafter'⟩ := hends second' edge' hedge'
  right
  rw [hbefore, hbefore', hafter, hafter']
  exact ⟨rfl, hlt⟩

theorem pairwise_isAhead_edgesFrom (conflicts : List Edge) (first : Fin systems.length) :
    (edgesFrom systems conflicts tags first).Pairwise Edge.IsAhead := by
  apply pairwise_isAhead_filterMap
  intro second edge hedge
  split at hedge
  case h_1 found hfound =>
    obtain rfl := Option.some.inj hedge
    have hbefore := List.of_mem_filter (List.mem_of_find?_eq_some hfound)
    have hafter := List.find?_some hfound
    exact ⟨beq_iff_eq.mp hbefore, beq_iff_eq.mp hafter⟩
  case h_2 =>
    obtain ⟨-, hnew⟩ := Option.ite_none_right_eq_some.mp hedge
    obtain rfl := Option.some.inj hnew
    exact ⟨rfl, rfl⟩

/-- The edges of an assembled graph are listed in lexicographic order. -/
theorem pairwise_isAhead_assembled (pairs : List (SystemPair systems.length)) :
    (assembled systems pairs tags).edges.Pairwise Edge.IsAhead := by
  rw [assembled, List.pairwise_flatMap]
  constructor
  case left =>
    intro first _
    exact pairwise_isAhead_edgesFrom _ first
  case right =>
    apply (List.pairwise_lt_finRange systems.length).imp
    intro first first' hlt edge hedge edge' hedge'
    have hbefore := (ends_of_mem_edgesFrom hedge).1
    have hbefore' := (ends_of_mem_edgesFrom hedge').1
    left
    rwa [hbefore, hbefore']

/-- A graph is known by its systems and by what binds them. -/
theorem ofSystems_eq_of_binds_iff {others : List (Descriptor β)} {tags' : TagOrder}
    (hids : others.map Descriptor.id = systems.map Descriptor.id)
    (hlength : systems.length = others.length)
    (hbinds : ∀ first second reason,
      Binds others tags' (first.cast hlength) (second.cast hlength) reason ↔
        Binds systems tags first second reason) :
    ofSystems others tags' = ofSystems systems tags := by
  have hedges : (ofSystems others tags').edges = (ofSystems systems tags).edges := by
    apply (pairwise_isAhead_assembled _).eq_of_mem_iff (pairwise_isAhead_assembled _)
    intro edge
    rw [← ofSystems, ← ofSystems, mem_edges_ofSystems_iff, mem_edges_ofSystems_iff,
      (finCongr hlength).surjective.exists₂]
    simp only [finCongr_apply, Fin.val_cast, hbinds]
  calc
    ofSystems others tags' = ⟨others.map Descriptor.id, (ofSystems others tags').edges⟩ := rfl
    _ = ⟨systems.map Descriptor.id, (ofSystems systems tags).edges⟩ := by rw [hids, hedges]
    _ = ofSystems systems tags := rfl

end Assembled

end Graph

end TickWaves
