import Mathlib.Data.List.FinRange
import TickWaves.Proofs.Graph.Edges
import TickWaves.Proofs.System.Building

/-!
# The pairs in conflict

Comparing every two systems finds each pair in conflict once, the earlier system first, and the
pairs come in lexicographic order (`SystemPair.pairwise_isAhead_conflicting`).  For systems that
were built by calls, a pair is found exactly if the calls declare a conflict.
-/

namespace TickWaves

universe u

variable {β : Type u}

namespace SystemPair

/-- One pair comes ahead of another one in lexicographic order. -/
def IsAhead {count : Nat} (pair other : SystemPair count) : Prop :=
  pair.first < other.first ∨ (pair.first = other.first ∧ pair.second < other.second)

theorem not_isAhead_self {count : Nat} (pair : SystemPair count) : ¬ pair.IsAhead pair := by
  rintro (hlt | ⟨-, hlt⟩)
  · exact Fin.lt_irrefl _ hlt
  · exact Fin.lt_irrefl _ hlt

variable (systems : List (Descriptor β))

theorem pairwise_isAhead_conflicting : (conflicting systems).Pairwise IsAhead := by
  rw [conflicting, List.pairwise_flatMap]
  constructor
  case left =>
    intro first _
    rw [List.pairwise_filterMap]
    apply (List.pairwise_lt_finRange systems.length).imp
    intro second second' hlt pair hpair pair' hpair'
    obtain ⟨-, heq⟩ := Option.ite_none_right_eq_some.mp hpair
    obtain ⟨-, heq'⟩ := Option.ite_none_right_eq_some.mp hpair'
    cases heq
    cases heq'
    exact Or.inr ⟨rfl, hlt⟩
  case right =>
    have hfirst : ∀ first, ∀ pair ∈ (List.finRange systems.length).filterMap (fun second =>
        if first < second ∧ systems[first].conflicts systems[second] then
          some (SystemPair.mk first second) else none), pair.first = first := by
      intro first pair hpair
      obtain ⟨second, -, hpair⟩ := List.mem_filterMap.mp hpair
      obtain ⟨-, heq⟩ := Option.ite_none_right_eq_some.mp hpair
      cases heq
      rfl
    apply (List.pairwise_lt_finRange systems.length).imp
    intro first first' hlt pair hpair pair' hpair'
    left
    rwa [hfirst first pair hpair, hfirst first' pair' hpair']

theorem nodup_conflicting : (conflicting systems).Nodup := by
  apply (pairwise_isAhead_conflicting systems).imp
  rintro pair other hahead rfl
  exact not_isAhead_self pair hahead

end SystemPair

/-- However two descriptors are built, what is stored of them is tested by the rule about declared
types and tags, whichever of them is asked, and of any list the pairs in conflict are found, each
once and in lexicographic order. -/
theorem Descriptor.conflicts_built (name name' : String) (body body' : β)
    (calls calls' : List Call) (systems : List (Descriptor β)) :
    (Plain.built calls).conflicts (Plain.built calls') =
        (built name body calls).conflicts (built name' body' calls') ∧
      ((built name body calls).conflicts (built name' body' calls') = true ↔
        Call.Conflict calls calls') ∧
      (built name body calls).conflicts (built name' body' calls') =
        (built name' body' calls').conflicts (built name body calls) ∧
      (∀ pair : SystemPair systems.length, pair ∈ SystemPair.conflicting systems ↔
        pair.first < pair.second ∧
          (systems.get pair.first).conflicts (systems.get pair.second) = true) ∧
      (SystemPair.conflicting systems).Nodup ∧
      (SystemPair.conflicting systems).Pairwise SystemPair.IsAhead := by
  refine ⟨?_, conflicts_built_iff name body calls name' body' calls', conflicts_comm _ _,
    fun _ => Graph.mem_conflicting, SystemPair.nodup_conflicting systems,
    SystemPair.pairwise_isAhead_conflicting systems⟩
  rw [← conflicts_plain, plain_built, plain_built]

end TickWaves
