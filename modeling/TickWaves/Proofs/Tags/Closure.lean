import TickWaves.Proofs.Graph.Ring
import TickWaves.Proofs.Tags.Search

/-!
# The order that pairs of tags declare

Whatever pairs are declared, one tag precedes another one exactly if declared pairs lead from the
first to the second, so a tag precedes itself exactly if it is on a ring of declared pairs.  The
search through the rows comes to its end at all of these tags, also where it runs back into its
start.  In the order of a list of distinct tags, the place in the list decides.  Nothing is kept of
how the pairs were declared: two orders are equal exactly if the same pairs were declared
(`TagOrder.isClosureOf_ofPairs`).
-/

namespace TickWaves

open Relation

namespace TagOrder

/-- An order that is the transitive closure of these pairs. -/
structure IsClosureOf (order : TagOrder) (pairs : List (Tag × Tag)) : Prop where
  mem_reachableFrom_iff : ∀ tag other, other ∈ order.reachableFrom tag ↔
    TransGen (fun before after => (before, after) ∈ pairs) tag other
  precedes_iff : ∀ tag other, order.precedes tag other = true ↔
    TransGen (fun before after => (before, after) ∈ pairs) tag other
  precedes_self_iff : ∀ tag, order.precedes tag tag = true ↔
    ∃ ring, IsRing (fun before after => (before, after) ∈ pairs) ring ∧ tag ∈ ring
  /-- The search from a tag ends: it visits the start once and then each tag it meets. -/
  endsWith : ∀ tag, TagRows.Search.EndsWith (TagRows.ofPairs pairs) (.start tag)
    ((order.reachableFrom tag).toList.length + 1) (order.reachableFrom tag)

/-- An order in which each tag of a list precedes the tags behind it, and no other one of them. -/
def FollowsPlaces (order : TagOrder) (tags : List Tag) : Prop :=
  ∀ (i j : Nat) (hi : i < tags.length) (hj : j < tags.length),
    order.precedes tags[i] tags[j] = true ↔ i < j

theorem declares_ofPairs_eq (pairs : List (Tag × Tag)) :
    (ofPairs pairs).Declares = fun before after => (before, after) ∈ pairs := by
  funext before after
  exact propext declares_ofPairs

theorem closure_ofPairs (pairs : List (Tag × Tag)) : (ofPairs pairs).IsClosureOf pairs := by
  have hrows : (TagRows.ofPairs pairs).Declares = (ofPairs pairs).Declares := by
    funext before after
    rw [declares_ofPairs_eq]
    exact propext TagRows.declares_ofPairs
  constructor
  case mem_reachableFrom_iff =>
    intro tag other
    rw [mem_reachableFrom, declares_ofPairs_eq]
  case precedes_iff =>
    intro tag other
    rw [precedes_eq_true_iff, declares_ofPairs_eq]
  case precedes_self_iff =>
    intro tag
    rw [precedes_eq_true_iff, declares_ofPairs_eq, transGen_self_iff_exists_isRing]
  case endsWith =>
    intro tag
    apply TagRows.Search.endsWith_start
    intro other
    rw [mem_reachableFrom, hrows]

section Chain

variable {tags : List Tag} {before after : Tag}

/-- Each tag of a list is declared before the one in the next place. -/
theorem declares_chain : (chain tags).Declares before after ↔
    ∃ i : Nat, tags[i]? = some before ∧ tags[i + 1]? = some after := by
  rw [chain, declares_ofPairs, List.mem_iff_getElem?]
  simp only [List.getElem?_zip_eq_some, List.getElem?_tail]

/-- A tag of a list of distinct tags stands in one place only. -/
theorem eq_of_getElem?_eq_some (hdistinct : tags.Nodup) {i j : Nat} {tag : Tag}
    (hi : tags[i]? = some tag) (hj : tags[j]? = some tag) : i = j := by
  obtain ⟨hlt, -⟩ := List.getElem?_eq_some_iff.mp hi
  exact (List.getElem?_inj hlt hdistinct).mp (hi.trans hj.symm)

theorem exists_lt_of_transGen_chain (hdistinct : tags.Nodup)
    (hchain : TransGen (chain tags).Declares before after) :
    ∃ i j : Nat, i < j ∧ tags[i]? = some before ∧ tags[j]? = some after := by
  induction hchain with
  | single hstep =>
      obtain ⟨i, hbefore, hafter⟩ := declares_chain.mp hstep
      exact ⟨i, i + 1, Nat.lt_succ_self i, hbefore, hafter⟩
  | tail _ hstep ih =>
      obtain ⟨i, j, hlt, hbefore, hmiddle⟩ := ih
      obtain ⟨k, hplace, hafter⟩ := declares_chain.mp hstep
      -- The last step goes on from the place where the others ended.
      obtain rfl : j = k := eq_of_getElem?_eq_some hdistinct hmiddle hplace
      exact ⟨i, j + 1, Nat.lt_succ_of_lt hlt, hbefore, hafter⟩

theorem transGen_chain_of_lt {i j : Nat} (hlt : i < j) (hbefore : tags[i]? = some before)
    (hafter : tags[j]? = some after) : TransGen (chain tags).Declares before after := by
  induction hlt generalizing after with
  | refl => exact .single (declares_chain.mpr ⟨i, hbefore, hafter⟩)
  | @step j _ ih =>
      obtain ⟨hj, -⟩ := List.getElem?_eq_some_iff.mp hafter
      have hmiddle : tags[j]? = some tags[j] := List.getElem?_eq_getElem (Nat.lt_of_succ_lt hj)
      exact (ih hmiddle).tail (declares_chain.mpr ⟨j, hmiddle, hafter⟩)

theorem followsPlaces_chain (hdistinct : tags.Nodup) : (chain tags).FollowsPlaces tags := by
  intro i j hi hj
  rw [precedes_eq_true_iff]
  constructor
  · intro hchain
    obtain ⟨i', j', hlt, hbefore, hafter⟩ := exists_lt_of_transGen_chain hdistinct hchain
    obtain rfl := eq_of_getElem?_eq_some hdistinct (List.getElem?_eq_getElem hi) hbefore
    obtain rfl := eq_of_getElem?_eq_some hdistinct (List.getElem?_eq_getElem hj) hafter
    exact hlt
  · intro hlt
    exact transGen_chain_of_lt hlt (List.getElem?_eq_getElem hi) (List.getElem?_eq_getElem hj)

end Chain

/-- Equal orders were declared from the same pairs. -/
theorem ofPairs_eq_iff {pairs pairs' : List (Tag × Tag)} :
    ofPairs pairs = ofPairs pairs' ↔ ∀ pair, pair ∈ pairs ↔ pair ∈ pairs' := by
  constructor
  · rintro heq ⟨before, after⟩
    rw [← declares_ofPairs, ← declares_ofPairs, heq]
  · intro hpairs
    apply ext_pairs
    rintro ⟨before, after⟩
    rw [← Declares, ← Declares, declares_ofPairs, declares_ofPairs, hpairs]

/-- Declared pairs make up their transitive closure, which the search through the rows finds, and
distinct tags in a list precede one another as they stand there.  Orders, and the rows in which
they are stored, are equal exactly if they were declared from the same pairs. -/
theorem isClosureOf_ofPairs (pairs pairs' : List (Tag × Tag)) {tags : List Tag}
    (hdistinct : tags.Nodup) :
    (ofPairs pairs).IsClosureOf pairs ∧
      (chain tags).FollowsPlaces tags ∧
      (ofPairs pairs = ofPairs pairs' ↔ ∀ pair, pair ∈ pairs ↔ pair ∈ pairs') ∧
      ((TagRows.ofPairs pairs).rows = (TagRows.ofPairs pairs').rows ↔
        ∀ pair, pair ∈ pairs ↔ pair ∈ pairs') :=
  ⟨closure_ofPairs pairs, followsPlaces_chain hdistinct, ofPairs_eq_iff,
    TagRows.rows_ofPairs_eq_iff⟩

/-- Two tags on a ring, the second one declared before itself as well, and a third tag behind
them; declared once more in another order, with a pair twice, they leave the same order. -/
theorem isClosureOf_ofPairs_ring :
    [(⟨1⟩ : Tag), ⟨2⟩, ⟨3⟩].Nodup ∧
      (ofPairs [(⟨1⟩, ⟨2⟩), (⟨2⟩, ⟨1⟩), (⟨2⟩, ⟨2⟩), (⟨2⟩, ⟨3⟩)]).IsClosureOf
        [(⟨1⟩, ⟨2⟩), (⟨2⟩, ⟨1⟩), (⟨2⟩, ⟨2⟩), (⟨2⟩, ⟨3⟩)] ∧
      (chain [⟨1⟩, ⟨2⟩, ⟨3⟩]).FollowsPlaces [⟨1⟩, ⟨2⟩, ⟨3⟩] ∧
      ofPairs [(⟨1⟩, ⟨2⟩), (⟨2⟩, ⟨1⟩), (⟨2⟩, ⟨2⟩), (⟨2⟩, ⟨3⟩)] =
        ofPairs [(⟨2⟩, ⟨3⟩), (⟨2⟩, ⟨2⟩), (⟨2⟩, ⟨3⟩), (⟨2⟩, ⟨1⟩), (⟨1⟩, ⟨2⟩)] := by
  have hdistinct : [(⟨1⟩ : Tag), ⟨2⟩, ⟨3⟩].Nodup := by decide
  obtain ⟨hclosure, hplaces, hequal, -⟩ := isClosureOf_ofPairs
    [(⟨1⟩, ⟨2⟩), (⟨2⟩, ⟨1⟩), (⟨2⟩, ⟨2⟩), (⟨2⟩, ⟨3⟩)]
    [(⟨2⟩, ⟨3⟩), (⟨2⟩, ⟨2⟩), (⟨2⟩, ⟨3⟩), (⟨2⟩, ⟨1⟩), (⟨1⟩, ⟨2⟩)] hdistinct
  refine ⟨hdistinct, hclosure, hplaces, hequal.mpr fun pair => ⟨?_, ?_⟩⟩
  · revert pair
    decide
  · revert pair
    decide

end TagOrder

end TickWaves
