import Mathlib.Data.List.Chain
import Mathlib.Data.List.Nodup
import TickWaves.Proofs.Graph.Acyclic

/-!
# What the search reports is a cycle

The path that the search is on is a chain of edges without a repeated node.  An edge from
its end back to one of its nodes therefore closes a ring (`Cycle.isRing_closedBy`), and a
ring is still one when it is read from its smallest node (`Cycle.isRing_fromLeast`).
Conversely, what an element leads back to itself by is a ring, once repeated elements are left
out (`transGen_self_iff_exists_isRing`).
-/

namespace TickWaves

open Relation

universe u

/-- Distinct elements, each related to the next one, and the last one to the first. -/
structure IsRing {α : Type u} (R : α → α → Prop) (ring : List α) : Prop where
  nonempty : ring ≠ []
  distinct : ring.Nodup
  chain : ring.IsChain R
  closed : ∀ last ∈ ring.getLast?, ∀ first ∈ ring.head?, R last first

namespace IsRing

variable {α : Type u} {R : α → α → Prop}

/-- A ring may be read from any of its elements. -/
theorem rotate {front back : List α} (hring : IsRing R (front ++ back)) :
    IsRing R (back ++ front) := by
  by_cases hfront : front = []
  · rw [hfront, List.append_nil]
    rwa [hfront, List.nil_append] at hring
  by_cases hback : back = []
  · rw [hback, List.nil_append]
    rwa [hback, List.append_nil] at hring
  obtain ⟨-, hdistinct, hchain, hclosed⟩ := hring
  obtain ⟨hleft, hright, hmiddle⟩ := List.isChain_append.mp hchain
  rw [List.getLast?_append_of_ne_nil _ hback, List.head?_append_of_ne_nil _ hfront] at hclosed
  constructor
  · exact List.append_ne_nil_of_left_ne_nil hback front
  · rwa [List.nodup_append_comm]
  · exact List.isChain_append.mpr ⟨hright, hleft, hclosed⟩
  · rw [List.getLast?_append_of_ne_nil _ hfront, List.head?_append_of_ne_nil _ hback]
    exact hmiddle

/-- From an element of a ring the relation leads back to it. -/
theorem transGen_self_of_mem {ring : List α} {element : α} (hring : IsRing R ring)
    (helement : element ∈ ring) : TransGen R element element := by
  obtain ⟨front, back, rfl⟩ := List.append_of_mem helement
  obtain ⟨-, -, hchain, hclosed⟩ := hring.rotate
  have hpath := List.relationReflTransGen_of_exists_isChain _ hchain (List.cons_ne_nil _ _)
  exact .tail' hpath (hclosed _ (List.getLast?_eq_some_getLast _) _ rfl)

theorem exists_transGen_self {ring : List α} (hring : IsRing R ring) :
    ∃ element, TransGen R element element :=
  ⟨ring.head hring.nonempty, hring.transGen_self_of_mem (List.head_mem hring.nonempty)⟩

theorem of_map {β : Type*} {f : β → α} {ring : List β} (hring : IsRing R (ring.map f)) :
    IsRing (fun left right => R (f left) (f right)) ring where
  nonempty heq := hring.nonempty (List.map_eq_nil_iff.mpr heq)
  distinct := List.Nodup.of_map f hring.distinct
  chain := (List.isChain_map f).mp hring.chain
  closed last hlast first hfirst := by
    apply hring.closed
    · rw [List.getLast?_map]
      exact Option.mem_map_of_mem f hlast
    · rw [List.head?_map]
      exact Option.mem_map_of_mem f hfirst

end IsRing

/-- What the relation leads to can be reached without going through an element twice. -/
theorem exists_nodup_isChain {α : Type u} {R : α → α → Prop} {first last : α}
    (hchain : ReflTransGen R first last) :
    ∃ path : List α, (first :: path).Nodup ∧ (first :: path).IsChain R ∧
      (first :: path).getLast? = some last := by
  induction hchain using ReflTransGen.head_induction_on with
  | refl => exact ⟨[], List.nodup_singleton _, List.isChain_singleton _, rfl⟩
  | @head first second hstep _ ih =>
      obtain ⟨path, hnodup, hpath, hlast⟩ := ih
      by_cases hfirst : first ∈ second :: path
      · -- The way goes through the first element again: what comes before that is left out.
        obtain ⟨front, back, hsplit⟩ := List.append_of_mem hfirst
        rw [hsplit] at hnodup hpath hlast
        refine ⟨back, (List.nodup_append.mp hnodup).2.1, (List.isChain_append.mp hpath).2.1, ?_⟩
        rwa [List.getLast?_append_of_ne_nil _ (List.cons_ne_nil first back)] at hlast
      · exact ⟨second :: path, List.nodup_cons.mpr ⟨hfirst, hnodup⟩,
          List.isChain_cons_cons.mpr ⟨hstep, hpath⟩, hlast⟩

/-- The relation leads from an element back to it exactly if the element is on a ring. -/
theorem transGen_self_iff_exists_isRing {α : Type u} {R : α → α → Prop} {element : α} :
    TransGen R element element ↔ ∃ ring, IsRing R ring ∧ element ∈ ring := by
  constructor
  · intro hchain
    obtain ⟨last, hpath, hback⟩ := TransGen.tail'_iff.mp hchain
    obtain ⟨path, hnodup, hpath, hlast⟩ := exists_nodup_isChain hpath
    refine ⟨element :: path, ⟨List.cons_ne_nil _ _, hnodup, hpath, ?_⟩, List.mem_cons_self⟩
    intro other hother first hfirst
    rw [hlast, Option.mem_some_iff] at hother
    rw [List.head?_cons, Option.mem_some_iff] at hfirst
    rwa [← hother, ← hfirst]
  · rintro ⟨ring, hring, helement⟩
    exact hring.transGen_self_of_mem helement

namespace Cycle

variable {next : Nat → List Nat}

theorem not_mem_of_nodup_append_cons {left right : List Nat} {node : Nat}
    (hdistinct : (left ++ node :: right).Nodup) : node ∉ left := fun hleft =>
  List.disjoint_of_nodup_append hdistinct hleft List.mem_cons_self

theorem takeWhile_append_cons {left right : List Nat} {node : Nat} (hleft : node ∉ left) :
    (left ++ node :: right).takeWhile (· != node) = left := by
  have hpass : ∀ other ∈ left, (other != node) = true := by
    intro other hother
    rw [bne_iff_ne]
    rintro rfl
    exact hleft hother
  rw [List.takeWhile_append_of_pos hpass, List.takeWhile_cons_of_neg (by simp), List.append_nil]

/-- The path behind a node is left out. -/
theorem closedBy_append {left right : List Nat} {node : Nat} (hleft : node ∉ left) :
    closedBy node (left ++ node :: right) = node :: left.reverse := by
  rw [closedBy, takeWhile_append_cons hleft, List.reverse_append, List.reverse_singleton,
    List.singleton_append]

/-- A path, latest node first, on which every node but the latest steps to the one
before it in the list. -/
structure IsPath (next : Nat → List Nat) (path : List Nat) : Prop where
  distinct : path.Nodup
  chain : path.IsChain fun later earlier => later ∈ next earlier

theorem IsPath.singleton (next : Nat → List Nat) (node : Nat) : IsPath next [node] :=
  ⟨List.nodup_singleton node, List.isChain_singleton node⟩

theorem IsPath.cons {path : List Nat} {node other : Nat} (hpath : IsPath next (node :: path))
    (hother : other ∈ next node) (hfresh : other ∉ node :: path) :
    IsPath next (other :: node :: path) :=
  ⟨List.nodup_cons.mpr ⟨hfresh, hpath.distinct⟩, List.isChain_cons_cons.mpr ⟨hother, hpath.chain⟩⟩

/-- A step back to a node of the path closes a ring. -/
theorem isRing_closedBy {path : List Nat} {node other : Nat}
    (hpath : IsPath next (node :: path)) (hother : other ∈ next node)
    (hmem : other ∈ node :: path) :
    IsRing (fun node other => other ∈ next node) (closedBy other (node :: path)) := by
  obtain ⟨left, right, hsplit⟩ := List.append_of_mem hmem
  have hdistinct := hpath.distinct
  have hchain := hpath.chain
  rw [hsplit] at hdistinct hchain
  rw [hsplit, closedBy_append (not_mem_of_nodup_append_cons hdistinct)]
  have hback : (other :: left.reverse) = (left ++ [other]).reverse := by simp
  have hfront : left ++ [other] <+: left ++ other :: right := by
    exact (List.prefix_append_right_inj left).mpr ⟨right, rfl⟩
  have hlatest : (left ++ [other]).head? = some node := by
    have hhead := congrArg List.head? hsplit
    rw [List.head?_append] at hhead ⊢
    exact hhead.symm
  rw [hback]
  constructor
  · simp
  · rw [List.nodup_reverse]
    exact hdistinct.sublist hfront.sublist
  · rw [List.isChain_reverse]
    exact hchain.prefix hfront
  · rw [List.getLast?_reverse, List.head?_reverse, hlatest, List.getLast?_concat]
    rintro _ ⟨⟩ _ ⟨⟩
    exact hother

theorem exists_step_of_foldl_eq_cycle {step : List Nat → Nat → Search}
    {others finished nodes : List Nat}
    (hfold : others.foldl (fun (found : Search) other =>
        found.andThen fun finished => step finished other) (.clear finished)
      = .cycle nodes) :
    ∃ other ∈ others, ∃ finished, step finished other = .cycle nodes := by
  induction others generalizing finished with
  | nil => cases hfold
  | cons other others ih =>
      rw [List.foldl_cons, Search.clear_andThen] at hfold
      cases hfound : step finished other with
      | cycle found =>
          rw [hfound, foldl_andThen_cycle] at hfold
          exact ⟨other, List.mem_cons_self, finished, hfound.trans hfold⟩
      | clear middle =>
          rw [hfound] at hfold
          obtain ⟨later, hlater, hstep⟩ := ih hfold
          exact ⟨later, List.mem_cons_of_mem _ hlater, hstep⟩

theorem isRing_of_visit_eq_cycle {room : Nat} {path finished nodes : List Nat} {node : Nat}
    (hpath : IsPath next (node :: path))
    (hvisit : visit next room path finished node = .cycle nodes) :
    IsRing (fun node other => other ∈ next node) nodes := by
  induction room generalizing path finished node with
  | zero => cases hvisit
  | succ room ih =>
      simp only [visit] at hvisit
      cases hfound : (next node).foldl (fun (found : Search) other =>
          found.andThen fun finished =>
            if other ∈ node :: path then .cycle (closedBy other (node :: path))
            else if other ∈ finished then .clear finished
            else visit next room (node :: path) finished other) (.clear finished) with
      | clear middle =>
          rw [hfound] at hvisit
          cases hvisit
      | cycle found =>
          rw [hfound, Search.cycle_andThen] at hvisit
          obtain rfl := Search.cycle.inj hvisit
          obtain ⟨other, hother, finished, hstep⟩ := exists_step_of_foldl_eq_cycle hfound
          split at hstep
          · rename_i hmem
            obtain rfl := Search.cycle.inj hstep
            exact isRing_closedBy hpath hother hmem
          · rename_i hfresh
            split at hstep
            · cases hstep
            · exact ih (hpath.cons hother hfresh) hstep

theorem isRing_of_search_eq_cycle {room : Nat} {nodes ring : List Nat}
    (hsearch : search next room nodes = .cycle ring) :
    IsRing (fun node other => other ∈ next node) ring := by
  obtain ⟨node, -, finished, hstep⟩ := exists_step_of_foldl_eq_cycle hsearch
  split at hstep
  · cases hstep
  · exact isRing_of_visit_eq_cycle (IsPath.singleton next node) hstep

/-- Read from its smallest node, a ring is still one. -/
theorem isRing_fromLeast {R : Nat → Nat → Prop} {ring : List Nat} (hring : IsRing R ring) :
    IsRing R (fromLeast ring) ∧
      ∀ first ∈ (fromLeast ring).head?, ∀ node ∈ fromLeast ring, first ≤ node := by
  obtain ⟨least, hleast⟩ : ∃ least, ring.min? = some least :=
    Option.ne_none_iff_exists'.mp (mt List.min?_eq_none_iff.mp hring.nonempty)
  obtain ⟨hmem, hle⟩ := List.min?_eq_some_iff.mp hleast
  obtain ⟨left, right, rfl⟩ := List.append_of_mem hmem
  have hleft := not_mem_of_nodup_append_cons hring.distinct
  have hturned : fromLeast (left ++ least :: right) = least :: right ++ left := by
    have hfront : (left ++ least :: right).takeWhile (· != least) = left :=
      takeWhile_append_cons hleft
    have hback : (left ++ least :: right).takeWhile (· != least) ++
        (left ++ least :: right).dropWhile (· != least) = left ++ least :: right :=
      List.takeWhile_append_dropWhile
    rw [hfront] at hback
    rw [fromLeast, hleast]
    dsimp only
    rw [hfront, List.append_cancel_left hback]
  rw [hturned]
  refine ⟨hring.rotate, ?_⟩
  rintro _ ⟨⟩ node hnode
  apply hle
  rwa [List.mem_append, or_comm, ← List.mem_append]

end Cycle

end TickWaves
