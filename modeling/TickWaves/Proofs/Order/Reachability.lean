import Mathlib.Data.List.Basic
import Mathlib.Data.List.Induction
import Mathlib.Logic.Relation
import TickWaves.TagOrder

/-!
# Reachability is the transitive closure

The search of `Reach.explore` meets exactly the nodes that a chain of one step or more
leads to.  The start is not marked as met, so a cycle through it is found as well.  For
the order of tags this says that one tag precedes another one exactly if declared pairs
lead from the first to the second (`TagOrder.precedes_eq_true_iff`).
-/

namespace TickWaves

open Relation

namespace Reach

variable {α : Type*} [DecidableEq α]

/-- One step of the successor function that stays in a list of nodes. -/
def StepIn (next : α → List α) (nodes : List α) (node other : α) : Prop :=
  other ∈ next node ∧ other ∈ nodes

theorem mem_met {next : α → List α} {fresh : List α} {node other : α} :
    other ∈ met next fresh node ↔ StepIn next fresh node other := by
  simp only [met, List.mem_filter, decide_eq_true_eq, StepIn]
  exact and_comm

theorem mem_unmet {next : α → List α} {fresh : List α} {node other : α} :
    other ∈ unmet next fresh node ↔ other ∈ fresh ∧ other ∉ next node := by
  simp [unmet]

theorem StepIn.of_unmet {next : α → List α} {fresh : List α} {visited node other : α}
    (hstep : StepIn next (unmet next fresh visited) node other) :
    StepIn next fresh node other :=
  ⟨hstep.1, (mem_unmet.mp hstep.2).1⟩

/-- What a chain through fresh nodes leads to is met by the visit of `visited`, or a chain
that avoids the nodes met there leads to it. -/
theorem met_or_transGen_unmet {next : α → List α} {fresh todo : List α}
    {visited node other : α} (hnode : node ∈ visited :: todo)
    (hchain : TransGen (StepIn next fresh) node other) :
    other ∈ met next fresh visited ∨
      ∃ start ∈ todo ++ met next fresh visited,
        TransGen (StepIn next (unmet next fresh visited)) start other := by
  induction hchain with
  | @single other hstep =>
      by_cases hother : other ∈ next visited
      · exact Or.inl (mem_met.mpr ⟨hother, hstep.2⟩)
      · have htodo : node ∈ todo := by
          rcases List.mem_cons.mp hnode with rfl | htodo
          · exact absurd hstep.1 hother
          · exact htodo
        have hunmet := mem_unmet.mpr ⟨hstep.2, hother⟩
        exact Or.inr ⟨node, List.mem_append_left _ htodo, .single ⟨hstep.1, hunmet⟩⟩
  | @tail middle other _ hstep ih =>
      by_cases hother : other ∈ next visited
      · exact Or.inl (mem_met.mpr ⟨hother, hstep.2⟩)
      · have hlast : StepIn next (unmet next fresh visited) middle other :=
          ⟨hstep.1, mem_unmet.mpr ⟨hstep.2, hother⟩⟩
        rcases ih with hmiddle | ⟨start, hstart, hchain⟩
        · exact Or.inr ⟨middle, List.mem_append_right _ hmiddle, .single hlast⟩
        · exact Or.inr ⟨start, hstart, hchain.tail hlast⟩

theorem mem_explore {next : α → List α} {fresh todo : List α} {other : α} :
    other ∈ explore next fresh todo ↔
      ∃ node ∈ todo, TransGen (StepIn next fresh) node other := by
  fun_induction explore next fresh todo with
  | case1 fresh => simp
  | case2 fresh visited todo ih =>
      rw [List.mem_append, ih]
      constructor
      · rintro (hmet | ⟨start, hstart, hchain⟩)
        · exact ⟨visited, List.mem_cons_self, .single (mem_met.mp hmet)⟩
        have hfresh : TransGen (StepIn next fresh) start other :=
          hchain.lift id fun _ _ => StepIn.of_unmet
        rcases List.mem_append.mp hstart with htodo | hmet
        · exact ⟨start, List.mem_cons_of_mem _ htodo, hfresh⟩
        · exact ⟨visited, List.mem_cons_self, hfresh.head (mem_met.mp hmet)⟩
      · rintro ⟨node, hnode, hchain⟩
        exact met_or_transGen_unmet hnode hchain

/-- The nodes that are reached are those to which one step or more inside the list
leads. -/
theorem mem_reached {next : α → List α} {nodes : List α} {start other : α} :
    other ∈ reached next nodes start ↔ TransGen (StepIn next nodes) start other := by
  simp [reached, mem_explore]

/-- If no step leaves the list, being reached is plain transitive closure. -/
theorem mem_reached_of_closed {next : α → List α} {nodes : List α}
    (hclosed : ∀ node, ∀ other ∈ next node, other ∈ nodes) {start other : α} :
    other ∈ reached next nodes start ↔
      TransGen (fun node other => other ∈ next node) start other := by
  rw [mem_reached]
  constructor
  · intro hchain
    exact hchain.lift id fun _ _ hstep => hstep.1
  · intro hchain
    exact hchain.lift id fun node other hstep => ⟨hstep, hclosed node other hstep⟩

end Reach

namespace TagOrder

def Declares (order : TagOrder) (before after : Tag) : Prop :=
  (before, after) ∈ order.pairs

/-- A list of pairs declares its members. -/
theorem declares_ofPairs {pairs : List (Tag × Tag)} {before after : Tag} :
    (ofPairs pairs).Declares before after ↔ (before, after) ∈ pairs := by
  induction pairs using List.reverseRecOn with
  | nil => simp [ofPairs, empty, Declares]
  | append_singleton pairs pair ih =>
      have hlast : ofPairs (pairs ++ [pair]) = (ofPairs pairs).declare pair.1 pair.2 :=
        List.foldl_concat _ empty pair pairs
      rw [hlast, Declares, mem_pairs_declare, ← Declares, ih, List.mem_append,
        List.mem_singleton, or_comm]

theorem mem_laterTags_of_declares {order : TagOrder} {before after : Tag}
    (hdeclares : order.Declares before after) : after ∈ order.laterTags := by
  rw [laterTags, KeySet.mem_ofList]
  exact List.mem_map_of_mem (f := Prod.snd) hdeclares

theorem mem_reachableFrom {order : TagOrder} {before after : Tag} :
    after ∈ order.reachableFrom before ↔ TransGen order.Declares before after := by
  have hclosed : ∀ tag, ∀ other ∈ order.declaredAfter tag,
      other ∈ order.laterTags.toList := by
    intro tag other hother
    exact mem_laterTags_of_declares (mem_declaredAfter.mp hother)
  rw [reachableFrom, KeySet.mem_ofList, Reach.mem_reached_of_closed hclosed]
  simp only [mem_declaredAfter]
  rfl

/-- The order is the transitive closure of the declared pairs. -/
theorem precedes_eq_true_iff {order : TagOrder} {before after : Tag} :
    order.precedes before after = true ↔ TransGen order.Declares before after := by
  rw [precedes, decide_eq_true_eq, mem_reachableFrom]

end TagOrder

end TickWaves
