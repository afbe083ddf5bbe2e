import Mathlib.Data.Fin.Basic
import Mathlib.Data.Set.List
import Mathlib.Tactic.Lift
import TickWaves.Proofs.Graph.Marks

/-!
# The check for cycles is sound and complete

A list of systems is refused exactly if what its pairs and its tag order demand has a
cycle, and what is reported then is such a cycle (`Graph.checksCycles`).  The pairs may be
any: in any order, more than once, with the later position first or with one position
twice.
-/

namespace TickWaves

open Relation

universe u

variable {β : Type u}

theorem IsRing.exists_related {α : Type u} {R : α → α → Prop} {ring : List α}
    (hring : IsRing R ring) {element : α} (hmem : element ∈ ring) :
    ∃ other, R element other := by
  obtain ⟨left, right, rfl⟩ := List.append_of_mem hmem
  have hturned := hring.rotate
  cases hrest : right ++ left with
  | nil =>
      rw [List.cons_append, hrest] at hturned
      exact ⟨element, hturned.closed element rfl element rfl⟩
  | cons other rest =>
      rw [List.cons_append, hrest] at hturned
      exact ⟨other, (List.isChain_cons_cons.mp hturned.chain).1⟩

namespace Graph

/-- One system has to run before another one, or before itself: a pair of the two is
directed by priority, or else by the order in which it names them, or their tags are in
order. -/
def Demands (systems : List (Descriptor β)) (pairs : List (SystemPair systems.length))
    (tags : TagOrder) (first second : Fin systems.length) : Prop :=
  (∃ pair ∈ pairs,
      (pair = ⟨first, second⟩ ∧
          (systems.get second).priority ≤ (systems.get first).priority) ∨
        (pair = ⟨second, first⟩ ∧
          (systems.get second).priority < (systems.get first).priority)) ∨
    (first ≠ second ∧ TagsInOrder systems tags first second)

variable {systems : List (Descriptor β)} {pairs : List (SystemPair systems.length)}
variable {tags : TagOrder}

theorem directed_joins_iff {pair : SystemPair systems.length}
    {first second : Fin systems.length} :
    ((directed systems pair).before = first ∧ (directed systems pair).after = second) ↔
      (pair = ⟨first, second⟩ ∧
          (systems.get second).priority ≤ (systems.get first).priority) ∨
        (pair = ⟨second, first⟩ ∧
          (systems.get second).priority < (systems.get first).priority) := by
  obtain ⟨left, right⟩ := pair
  rw [directed_eq]
  simp only [SystemPair.mk.injEq]
  constructor
  · intro hjoins
    split at hjoins
    case isTrue hlt =>
      obtain ⟨hfirst, hsecond⟩ := hjoins
      obtain rfl : left = first := Fin.ext hfirst
      obtain rfl : right = second := Fin.ext hsecond
      exact Or.inl ⟨⟨rfl, rfl⟩, Int.le_of_lt hlt⟩
    case isFalse hnot =>
      split at hjoins
      case isTrue hlt =>
        obtain ⟨hfirst, hsecond⟩ := hjoins
        obtain rfl : right = first := Fin.ext hfirst
        obtain rfl : left = second := Fin.ext hsecond
        exact Or.inr ⟨⟨rfl, rfl⟩, hlt⟩
      case isFalse hnot' =>
        obtain ⟨hfirst, hsecond⟩ := hjoins
        obtain rfl : left = first := Fin.ext hfirst
        obtain rfl : right = second := Fin.ext hsecond
        exact Or.inl ⟨⟨rfl, rfl⟩, Int.not_lt.mp hnot'⟩
  · rintro (⟨⟨rfl, rfl⟩, hle⟩ | ⟨⟨rfl, rfl⟩, hlt⟩)
    · rw [if_neg (Int.not_lt.mpr hle)]
      split <;> exact ⟨rfl, rfl⟩
    · rw [if_neg (Int.not_lt.mpr (Int.le_of_lt hlt)), if_pos hlt]
      exact ⟨rfl, rfl⟩

/-- The edges of the assembled graph are the demands. -/
theorem leads_assembled_iff_demands {first second : Fin systems.length} :
    (assembled systems pairs tags).Leads first second ↔
      Demands systems pairs tags first second := by
  rw [leads_assembled_iff, Demands]
  simp only [directed_joins_iff]

def walk (graph : Graph) : Cycle.Walk :=
  Cycle.walkAll graph.successors graph.size (List.range graph.size)

/-- The search with marks ends with the cycle that is reported, or clear if there is none. -/
theorem IsScoped.walk_cases {graph : Graph} (hscoped : graph.IsScoped) :
    (∃ nodes, graph.walk = .cycle nodes ∧ graph.cycle? = some (Cycle.fromLeast nodes)) ∨
      ∃ trail, graph.walk = .clear trail ∧ graph.cycle? = none := by
  have hmatches := Cycle.matches_walkAll hscoped.successors_subset
  rw [List.length_range] at hmatches
  rw [cycle?, hscoped.getD_successorTable]
  cases hsearch : Cycle.search graph.successors graph.size (List.range graph.size) with
  | cycle nodes =>
      rw [hsearch] at hmatches
      exact Or.inl ⟨nodes, hmatches, rfl⟩
  | clear finished =>
      rw [hsearch] at hmatches
      obtain ⟨trail, hwalk, -⟩ := hmatches
      exact Or.inr ⟨trail, hwalk, rfl⟩

theorem IsScoped.isRing_of_cycle?_eq_some {graph : Graph} (hscoped : graph.IsScoped)
    {ring : List Nat} (hcycle : graph.cycle? = some ring) :
    IsRing graph.Leads ring ∧ ∀ first ∈ ring.head?, ∀ node ∈ ring, first ≤ node := by
  rw [cycle?, hscoped.getD_successorTable] at hcycle
  split at hcycle
  · rename_i nodes hsearch
    obtain rfl := Option.some.inj hcycle
    have hring := Cycle.isRing_of_search_eq_cycle hsearch
    simp only [mem_successors] at hring
    exact Cycle.isRing_fromLeast hring
  · cases hcycle

/-- What a list of systems is refused for is a cycle of its demands, read from its smallest
position. -/
theorem exists_isRing_of_build_eq_error {dependency : CyclicDependency}
    (hbuild : build systems pairs tags = .error dependency) :
    ∃ ring : List (Fin systems.length), IsRing (Demands systems pairs tags) ring ∧
      (∀ first ∈ ring.head?, ∀ node ∈ ring, first ≤ node) ∧
        dependency.cycle = ring.map fun node => (systems.get node).id := by
  simp only [build] at hbuild
  split at hbuild
  case h_2 => cases hbuild
  case h_1 ring hcycle =>
    obtain ⟨hring, hleast⟩ := isScoped_assembled.isRing_of_cycle?_eq_some hcycle
    obtain rfl := Except.error.inj hbuild
    have hbound : ∀ node ∈ ring, node < systems.length := by
      intro node hnode
      obtain ⟨other, hleads⟩ := hring.exists_related hnode
      have hlt := (isScoped_assembled node other hleads).1
      rwa [size_assembled] at hlt
    lift ring to List (Fin systems.length) using hbound
    refine ⟨ring, ?_, ?_, ?_⟩
    · have hdemands := hring.of_map
      simp only [leads_assembled_iff_demands] at hdemands
      exact hdemands
    · intro first hfirst node hnode
      apply hleast first _ node (List.mem_map_of_mem hnode)
      rw [List.head?_map]
      exact Option.mem_map_of_mem _ hfirst
    · rw [List.map_map]
      apply List.map_congr_left
      intro node _
      simp [idAt, assembled]

/-- What is assembled is accepted exactly if it has no cycle. -/
theorem exists_build_eq_ok_iff :
    (∃ graph, build systems pairs tags = .ok graph) ↔
      (assembled systems pairs tags).IsAcyclic := by
  constructor
  · rintro ⟨graph, hbuild⟩
    obtain ⟨rfl, hacyclic⟩ := build_eq_ok hbuild
    exact hacyclic
  · intro hacyclic
    cases hbuild : build systems pairs tags with
    | ok graph => exact ⟨graph, rfl⟩
    | error dependency =>
        obtain ⟨ring, hring, -⟩ := exists_isRing_of_build_eq_error hbuild
        obtain ⟨node, hcycle⟩ := hring.exists_transGen_self
        have hleads : TransGen (assembled systems pairs tags).Leads node node :=
          hcycle.lift Fin.val fun _ _ => leads_assembled_iff_demands.mpr
        exact absurd hleads (hacyclic node)

/-- The check for cycles refuses a list of systems exactly if its demands have a cycle, and
reports such a cycle, from its smallest position on.  The search with marks finds every
node that it looks up on its path, and comes to the same. -/
structure ChecksCycles (systems : List (Descriptor β))
    (pairs : List (SystemPair systems.length)) (tags : TagOrder) : Prop where
  refuses_iff : (∃ dependency, build systems pairs tags = .error dependency) ↔
    ∃ node, TransGen (Demands systems pairs tags) node node
  reports : ∀ dependency, build systems pairs tags = .error dependency →
    ∃ ring : List (Fin systems.length), IsRing (Demands systems pairs tags) ring ∧
      (∀ first ∈ ring.head?, ∀ node ∈ ring, first ≤ node) ∧
        dependency.cycle = ring.map fun node => (systems.get node).id
  walk_ne_lost : (assembled systems pairs tags).walk ≠ .lost
  refuses_of_walk : ∀ nodes, (assembled systems pairs tags).walk = .cycle nodes →
    build systems pairs tags =
      .error ⟨(Cycle.fromLeast nodes).map (assembled systems pairs tags).idAt⟩
  accepts_of_walk : ∀ trail, (assembled systems pairs tags).walk = .clear trail →
    build systems pairs tags = .ok (assembled systems pairs tags)

theorem checksCycles (systems : List (Descriptor β))
    (pairs : List (SystemPair systems.length)) (tags : TagOrder) :
    ChecksCycles systems pairs tags where
  refuses_iff := by
    constructor
    · rintro ⟨dependency, hbuild⟩
      obtain ⟨ring, hring, -⟩ := exists_isRing_of_build_eq_error hbuild
      exact hring.exists_transGen_self
    · rintro ⟨node, hcycle⟩
      cases hbuild : build systems pairs tags with
      | error dependency => exact ⟨dependency, rfl⟩
      | ok graph =>
          obtain ⟨rfl, hacyclic⟩ := build_eq_ok hbuild
          have hleads : TransGen (assembled systems pairs tags).Leads node node :=
            hcycle.lift Fin.val fun _ _ => leads_assembled_iff_demands.mpr
          exact absurd hleads (hacyclic node)
  reports _ := exists_isRing_of_build_eq_error
  walk_ne_lost hlost := by
    rcases isScoped_assembled.walk_cases with ⟨nodes, hwalk, -⟩ | ⟨trail, hwalk, -⟩ <;>
      exact Cycle.Walk.noConfusion (hlost.symm.trans hwalk)
  refuses_of_walk nodes hnodes := by
    rcases isScoped_assembled.walk_cases with ⟨found, hwalk, hcycle⟩ | ⟨trail, hwalk, -⟩
    · obtain rfl := Cycle.Walk.cycle.inj (hnodes.symm.trans hwalk)
      simp only [build, hcycle]
    · exact Cycle.Walk.noConfusion (hnodes.symm.trans hwalk)
  accepts_of_walk trail htrail := by
    rcases isScoped_assembled.walk_cases with ⟨found, hwalk, -⟩ | ⟨found, -, hclear⟩
    · exact Cycle.Walk.noConfusion (htrail.symm.trans hwalk)
    · simp only [build, hclear]

end Graph

end TickWaves
