import Mathlib.Data.List.Induction
import TickWaves.Proofs.Order.Lookup
import TickWaves.Proofs.Order.Reachability

/-!
# The order of tags, row by row

Stored, the declared pairs are rows: each tag that comes before another one has a row with the tags
declared after it.  The rows stand in ascending order and none is empty, so pairs that were
declared in another order, or more than once, leave the same rows
(`TagRows.rows_ofPairs_eq_iff`).
-/

namespace TickWaves

open Keyed

/-- The declared pairs of tags, kept by the first tag. -/
structure TagRows where
  /-- Every tag that comes before another one, with the tags declared after it. -/
  rows : List (Tag × KeySet Tag)
  ascending : (rows.map Prod.fst).Pairwise fun tag other => key tag < key other
  /-- A row is there for what was declared. -/
  filled : ∀ row ∈ rows, ∃ after, after ∈ row.2

namespace TagRows

def laterIn (rows : List (Tag × KeySet Tag)) (tag : Tag) : KeySet Tag :=
  (rows.lookup tag).getD KeySet.empty

/-- Puts a tag into the row of another one, or into a new row if there is none. -/
def enter (before after : Tag) : List (Tag × KeySet Tag) → List (Tag × KeySet Tag)
  | [] => [(before, KeySet.empty.insert after)]
  | row :: rows =>
      if key before < key row.1 then (before, KeySet.empty.insert after) :: row :: rows
      else if key row.1 < key before then row :: enter before after rows
      else (row.1, row.2.insert after) :: rows

section Lookup

variable {rows : List (Tag × KeySet Tag)} {tag : Tag}

@[simp]
theorem laterIn_nil (tag : Tag) : laterIn [] tag = KeySet.empty := rfl

theorem laterIn_of_not_mem (htag : tag ∉ rows.map Prod.fst) : laterIn rows tag = KeySet.empty := by
  rw [laterIn, lookup_eq_none_of_not_mem htag, Option.getD_none]

theorem laterIn_cons (row : Tag × KeySet Tag) (rows : List (Tag × KeySet Tag)) (tag : Tag) :
    laterIn (row :: rows) tag = if tag = row.1 then row.2 else laterIn rows tag := by
  rw [laterIn, List.lookup_cons]
  by_cases htag : tag = row.1
  · simp [htag]
  · rw [beq_false_of_ne htag, if_neg htag, laterIn]

end Lookup

section Enter

variable (before after : Tag) (rows : List (Tag × KeySet Tag))

/-- A row goes where its tag belongs among the tags of the rows. -/
theorem map_fst_enter :
    (enter before after rows).map Prod.fst = KeySet.place before (rows.map Prod.fst) := by
  induction rows with
  | nil => rfl
  | cons row rows ih =>
      rw [enter, List.map_cons, KeySet.place]
      split
      · rfl
      split
      · rw [List.map_cons, ih]
      · rfl

theorem exists_mem_of_mem_enter (hfilled : ∀ row ∈ rows, ∃ after, after ∈ row.2)
    {row : Tag × KeySet Tag} (hrow : row ∈ enter before after rows) :
    ∃ after, after ∈ row.2 := by
  induction rows with
  | nil =>
      rw [List.mem_singleton.mp hrow]
      exact ⟨after, KeySet.mem_insert.mpr (.inl rfl)⟩
  | cons head rows ih =>
      obtain ⟨hhead, hrows⟩ := List.forall_mem_cons.mp hfilled
      rw [enter] at hrow
      split at hrow
      · rcases List.mem_cons.mp hrow with rfl | hold
        · exact ⟨after, KeySet.mem_insert.mpr (.inl rfl)⟩
        · exact hfilled row hold
      split at hrow
      · rcases List.mem_cons.mp hrow with rfl | hlater
        · exact hhead
        · exact ih hrows hlater
      · rcases List.mem_cons.mp hrow with rfl | hlater
        · exact ⟨after, KeySet.mem_insert.mpr (.inl rfl)⟩
        · exact hrows row hlater

/-- Only the row of the first tag gets longer, by the second tag. -/
theorem mem_laterIn_enter
    (hascending : (rows.map Prod.fst).Pairwise fun tag other => key tag < key other)
    (tag other : Tag) :
    other ∈ laterIn (enter before after rows) tag ↔
      (tag = before ∧ other = after) ∨ other ∈ laterIn rows tag := by
  induction rows with
  | nil => by_cases htag : tag = before <;> simp [enter, laterIn_cons, htag]
  | cons row rows ih =>
      obtain ⟨hrow, hrows⟩ := List.pairwise_cons.mp hascending
      rw [enter]
      split
      case isTrue hlt =>
        by_cases htag : tag = before
        · -- All rows are above the first tag, so it has none yet.
          have hnone : before ∉ (row :: rows).map Prod.fst := by
            intro hin
            rcases List.mem_cons.mp hin with rfl | hlater
            · exact Nat.lt_irrefl _ hlt
            · exact Nat.lt_asymm hlt (hrow before hlater)
          simp [laterIn_cons, htag, laterIn_of_not_mem hnone]
        · simp [laterIn_cons, htag]
      case isFalse hnot =>
        split
        case isTrue hgt =>
          by_cases htag : tag = row.1
          · have hne : row.1 ≠ before := by
              rintro rfl
              exact Nat.lt_irrefl _ hgt
            simp [laterIn_cons, htag, hne]
          · simp [laterIn_cons, htag, ih hrows]
        case isFalse hnot' =>
          obtain rfl : before = row.1 := key_injective (by omega)
          by_cases htag : tag = row.1 <;> simp [laterIn_cons, htag]

end Enter

def empty : TagRows where
  rows := []
  ascending := List.Pairwise.nil
  filled _ hrow := by cases hrow

def declare (order : TagRows) (before after : Tag) : TagRows where
  rows := enter before after order.rows
  ascending := by
    rw [map_fst_enter]
    exact KeySet.place_ascending before order.ascending
  filled _ hrow := exists_mem_of_mem_enter before after order.rows order.filled hrow

def ofPairs (pairs : List (Tag × Tag)) : TagRows :=
  pairs.foldl (fun order pair => order.declare pair.1 pair.2) empty

def later (order : TagRows) (tag : Tag) : KeySet Tag := laterIn order.rows tag

def Declares (order : TagRows) (before after : Tag) : Prop := after ∈ order.later before

theorem declares_declare (order : TagRows) (before after tag other : Tag) :
    (order.declare before after).Declares tag other ↔
      (tag = before ∧ other = after) ∨ order.Declares tag other :=
  mem_laterIn_enter before after order.rows order.ascending tag other

theorem declares_ofPairs {pairs : List (Tag × Tag)} {tag other : Tag} :
    (ofPairs pairs).Declares tag other ↔ (tag, other) ∈ pairs := by
  induction pairs using List.reverseRecOn with
  | nil => simp [ofPairs, empty, Declares, later]
  | append_singleton pairs pair ih =>
      have hlast : ofPairs (pairs ++ [pair]) = (ofPairs pairs).declare pair.1 pair.2 :=
        List.foldl_concat _ empty pair pairs
      rw [hlast, declares_declare, ih, List.mem_append, List.mem_singleton, Prod.ext_iff, or_comm]

theorem later_eq_of_mem {order : TagRows} {row : Tag × KeySet Tag} (hrow : row ∈ order.rows) :
    order.later row.1 = row.2 := by
  have hnodup : (order.rows.map Prod.fst).Nodup :=
    order.ascending.imp fun hlt heq => Nat.ne_of_lt hlt (congrArg key heq)
  rw [later, laterIn, lookup_eq_some_of_mem hnodup hrow, Option.getD_some]

/-- The rows are known from their tags and from what stands in the row of each. -/
theorem rows_eq_map (order : TagRows) :
    order.rows = (order.rows.map Prod.fst).map fun tag => (tag, order.later tag) := by
  calc
    order.rows = order.rows.map fun row => row := (List.map_id' order.rows).symm
    _ = order.rows.map fun row => (row.1, order.later row.1) := by
      apply List.map_congr_left
      intro row hrow
      rw [later_eq_of_mem hrow]
    _ = (order.rows.map Prod.fst).map fun tag => (tag, order.later tag) := by
      rw [List.map_map]
      rfl

/-- A tag has a row if something is declared after it. -/
theorem mem_map_fst_rows {order : TagRows} {tag : Tag} :
    tag ∈ order.rows.map Prod.fst ↔ ∃ other, order.Declares tag other := by
  constructor
  · intro htag
    obtain ⟨row, hrow, rfl⟩ := List.mem_map.mp htag
    obtain ⟨other, hother⟩ := order.filled row hrow
    refine ⟨other, ?_⟩
    rwa [Declares, later_eq_of_mem hrow]
  · rintro ⟨other, hother⟩
    by_contra htag
    rw [Declares, later, laterIn_of_not_mem htag] at hother
    exact KeySet.not_mem_empty other hother

/-- Rows that hold the same pairs are the same rows. -/
theorem rows_eq_of_declares_iff {order order' : TagRows}
    (hpairs : ∀ tag other, order.Declares tag other ↔ order'.Declares tag other) :
    order.rows = order'.rows := by
  have htags : order.rows.map Prod.fst = order'.rows.map Prod.fst := by
    apply KeySet.eq_of_mem_iff order.ascending order'.ascending
    intro tag
    simp only [mem_map_fst_rows, hpairs]
  have hlater : order.later = order'.later := by
    funext tag
    exact KeySet.ext_mem (hpairs tag)
  rw [rows_eq_map order, rows_eq_map order', htags, hlater]

/-- The same pairs leave the same rows, in whatever order and however often they are declared. -/
theorem rows_ofPairs_eq_iff {pairs pairs' : List (Tag × Tag)} :
    (ofPairs pairs).rows = (ofPairs pairs').rows ↔ ∀ pair, pair ∈ pairs ↔ pair ∈ pairs' := by
  constructor
  · rintro hrows ⟨tag, other⟩
    rw [← declares_ofPairs, ← declares_ofPairs, Declares, Declares, later, later, hrows]
  · intro hpairs
    apply rows_eq_of_declares_iff
    intro tag other
    rw [declares_ofPairs, declares_ofPairs, hpairs]

end TagRows

end TickWaves
