import Mathlib.Data.List.Perm.Subperm
import Mathlib.Logic.Function.Iterate
import TickWaves.Proofs.Tags.Rows

/-!
# The search through the rows

What comes after a tag is searched with a stack: as long as there is a tag on it, the topmost one
is taken off, and the tags in its row that have not been met are marked and put on top.  The tag
from which the search starts is not marked, so it is met if declared pairs lead back to it.  Each
tag is put on the stack once, so there is one turn for every tag that is met and one for the start,
and then all tags have been met to which declared pairs lead (`TagRows.Search.endsWith_start`).
-/

namespace TickWaves

open Keyed Relation

namespace KeySet

variable {α : Type*} [Keyed α] {set other : KeySet α} {element : α}

theorem nodup_toList (set : KeySet α) : set.toList.Nodup :=
  set.ascending.imp fun hlt heq => Nat.ne_of_lt hlt (congrArg key heq)

/-- A set with no other elements than another one is not larger. -/
theorem length_le_of_forall_mem (hsubset : ∀ element ∈ set, element ∈ other) :
    set.toList.length ≤ other.toList.length :=
  (List.subperm_of_subset set.nodup_toList hsubset).length_le

theorem length_insert (hfresh : element ∉ set) :
    (set.insert element).toList.length = set.toList.length + 1 := by
  have hperm : (set.insert element).toList.Perm (element :: set.toList) := by
    rw [List.perm_ext_iff_of_nodup (set.insert element).nodup_toList
      (List.nodup_cons.mpr ⟨hfresh, set.nodup_toList⟩)]
    intro other
    rw [← mem_def, mem_insert, List.mem_cons, mem_def]
  exact hperm.length_eq

end KeySet

namespace TagRows

structure Search where
  /-- The tags that have been met. -/
  seen : KeySet Tag
  /-- The tags that have not been visited, the next one on top. -/
  stack : List Tag

namespace Search

/-- The tag from which a search starts is not marked. -/
def start (tag : Tag) : Search := ⟨KeySet.empty, [tag]⟩

/-- Marks a tag and puts it on the stack, unless it has been met. -/
def meet (search : Search) (tag : Tag) : Search :=
  if tag ∈ search.seen then search else ⟨search.seen.insert tag, tag :: search.stack⟩

/-- Visits the topmost tag: all tags in its row are met. -/
def turn (order : TagRows) (search : Search) : Search :=
  match search.stack with
  | [] => search
  | tag :: stack => (order.later tag).toList.foldl meet ⟨search.seen, stack⟩

/-- The search is over after some turns, and not before, and these tags have been met. -/
structure EndsWith (order : TagRows) (search : Search) (turns : Nat) (met : KeySet Tag) :
    Prop where
  ended : (turn order)^[turns] search = ⟨met, []⟩
  underway : ∀ earlier < turns, ((turn order)^[earlier] search).stack ≠ []

section Meet

variable (search : Search) {tag other : Tag}

theorem mem_seen_meet : other ∈ (search.meet tag).seen ↔ other ∈ search.seen ∨ other = tag := by
  rw [meet]
  split
  case isTrue hseen =>
    refine ⟨.inl, ?_⟩
    rintro (hold | rfl)
    · exact hold
    · exact hseen
  case isFalse => rw [KeySet.mem_insert, or_comm]

theorem mem_stack_meet : other ∈ (search.meet tag).stack ↔
    other ∈ search.stack ∨ (other = tag ∧ other ∉ search.seen) := by
  rw [meet]
  split
  case isTrue hseen =>
    refine ⟨.inl, ?_⟩
    rintro (hold | ⟨rfl, hnot⟩)
    · exact hold
    · exact absurd hseen hnot
  case isFalse hnot =>
    rw [List.mem_cons, or_comm]
    refine or_congr_right ⟨?_, And.left⟩
    rintro rfl
    exact ⟨rfl, hnot⟩

/-- Whatever is marked goes onto the stack. -/
theorem length_meet (tag : Tag) :
    (search.meet tag).stack.length + search.seen.toList.length =
      search.stack.length + (search.meet tag).seen.toList.length := by
  rw [meet]
  split
  case isTrue => rfl
  case isFalse hnot =>
    rw [KeySet.length_insert hnot, List.length_cons]
    omega

theorem mem_seen_foldl_meet (tags : List Tag) :
    other ∈ (tags.foldl meet search).seen ↔ other ∈ search.seen ∨ other ∈ tags := by
  induction tags generalizing search with
  | nil => simp
  | cons tag tags ih => rw [List.foldl_cons, ih, mem_seen_meet, List.mem_cons, or_assoc]

theorem mem_stack_foldl_meet (tags : List Tag) :
    other ∈ (tags.foldl meet search).stack ↔
      other ∈ search.stack ∨ (other ∈ tags ∧ other ∉ search.seen) := by
  induction tags generalizing search with
  | nil => simp
  | cons tag tags ih =>
      rw [List.foldl_cons, ih, mem_stack_meet, mem_seen_meet, List.mem_cons]
      by_cases htag : other = tag <;> simp [htag]

theorem length_foldl_meet (tags : List Tag) :
    (tags.foldl meet search).stack.length + search.seen.toList.length =
      search.stack.length + (tags.foldl meet search).seen.toList.length := by
  induction tags generalizing search with
  | nil => rfl
  | cons tag tags ih =>
      have hfirst := search.length_meet tag
      have hrest := ih (search.meet tag)
      rw [List.foldl_cons]
      omega

end Meet

/-- What a search from a tag has done.  A tag that was met and is not on the stack has been
visited, and so has the start. -/
structure Tracks (order : TagRows) (tag : Tag) (search : Search) : Prop where
  sound : ∀ other ∈ search.seen, TransGen order.Declares tag other
  stacked : ∀ other ∈ search.stack, other = tag ∨ other ∈ search.seen
  visited : ∀ other, other = tag ∨ other ∈ search.seen →
    other ∈ search.stack ∨ ∀ after, order.Declares other after → after ∈ search.seen

namespace Tracks

variable {order : TagRows} {tag : Tag} {search : Search}

theorem start (order : TagRows) (tag : Tag) : Tracks order tag (start tag) where
  sound _ hseen := absurd hseen (KeySet.not_mem_empty _)
  stacked _ hstack := .inl (List.mem_singleton.mp hstack)
  visited other hmet := by
    rcases hmet with rfl | hseen
    · exact .inl List.mem_cons_self
    · exact absurd hseen (KeySet.not_mem_empty other)

theorem turn (htracks : Tracks order tag search) : Tracks order tag (search.turn order) := by
  rw [Search.turn]
  split
  case h_1 => exact htracks
  case h_2 current stack hstack =>
    obtain ⟨hsound, hstacked, hvisited⟩ := htracks
    rw [hstack] at hstacked hvisited
    have hcurrent := hstacked current List.mem_cons_self
    constructor
    case sound =>
      intro other hother
      rcases (mem_seen_foldl_meet _ _).mp hother with hold | hnew
      · exact hsound other hold
      · rcases hcurrent with rfl | hseen
        · exact .single hnew
        · exact (hsound current hseen).tail hnew
    case stacked =>
      intro other hother
      rw [mem_seen_foldl_meet]
      rcases (mem_stack_foldl_meet _ _).mp hother with hold | ⟨hnew, -⟩
      · exact (hstacked other (List.mem_cons_of_mem _ hold)).imp_right .inl
      · exact .inr (.inr hnew)
    case visited =>
      intro other hother
      simp only [mem_seen_foldl_meet, mem_stack_foldl_meet] at hother ⊢
      by_cases hold : other = tag ∨ other ∈ search.seen
      · rcases hvisited other hold with hin | hdone
        · rcases List.mem_cons.mp hin with rfl | hin
          · exact .inr fun after hafter => .inr hafter
          · exact .inl (.inl hin)
        · exact .inr fun after hafter => .inl (hdone after hafter)
      · push Not at hold
        have hnew : other ∈ (order.later current).toList := by
          rcases hother with heq | hseen | hnew
          · exact absurd heq hold.1
          · exact absurd hseen hold.2
          · exact hnew
        exact .inl (.inr ⟨hnew, hold.2⟩)

/-- When the stack is empty, everything has been met to which declared pairs lead. -/
theorem mem_seen_iff (htracks : Tracks order tag search) (hstack : search.stack = [])
    (other : Tag) : other ∈ search.seen ↔ TransGen order.Declares tag other := by
  have hclosed : ∀ before, before = tag ∨ before ∈ search.seen →
      ∀ after, order.Declares before after → after ∈ search.seen := by
    intro before hbefore
    rcases htracks.visited before hbefore with hin | hdone
    · rw [hstack] at hin
      cases hin
    · exact hdone
  constructor
  · exact htracks.sound other
  · intro hchain
    induction hchain with
    | single hfirst => exact hclosed tag (.inl rfl) _ hfirst
    | tail _ hlast ih => exact hclosed _ (.inr ih) _ hlast

theorem iterate (order : TagRows) (tag : Tag) (turns : Nat) :
    Tracks order tag ((Search.turn order)^[turns] (Search.start tag)) := by
  induction turns with
  | zero => exact start order tag
  | succ turns ih =>
      rw [Function.iterate_succ_apply']
      exact ih.turn

end Tracks

/-- A turn takes one tag off the stack and puts on it what it marks. -/
theorem length_turn (order : TagRows) {search : Search} (hstack : search.stack ≠ []) :
    (search.turn order).stack.length + 1 + search.seen.toList.length =
      search.stack.length + (search.turn order).seen.toList.length := by
  rw [turn]
  split
  case h_1 hnil => exact absurd hnil hstack
  case h_2 tag stack hcons =>
    have hlength := length_foldl_meet ⟨search.seen, stack⟩ (order.later tag).toList
    rw [hcons, List.length_cons]
    dsimp only at hlength
    omega

/-- As long as the search goes on, its turns and what is on the stack make up what was met, and
the start. -/
theorem length_iterate {order : TagRows} {tag : Tag} {turns : Nat}
    (hunderway : ∀ earlier < turns, ((turn order)^[earlier] (start tag)).stack ≠ []) :
    ((turn order)^[turns] (start tag)).stack.length + turns =
      ((turn order)^[turns] (start tag)).seen.toList.length + 1 := by
  induction turns with
  | zero => rfl
  | succ turns ih =>
      have hbefore := ih fun earlier hearlier => hunderway earlier (Nat.lt_succ_of_lt hearlier)
      have hlength := length_turn order (hunderway turns (Nat.lt_succ_self turns))
      rw [Function.iterate_succ_apply']
      omega

/-- The search is over after one turn more than there are tags to which declared pairs lead. -/
theorem endsWith_start {order : TagRows} {tag : Tag} {reached : KeySet Tag}
    (hreached : ∀ other, other ∈ reached ↔ TransGen order.Declares tag other) :
    EndsWith order (start tag) (reached.toList.length + 1) reached := by
  have hseen : ∀ turns, ((turn order)^[turns] (start tag)).stack = [] →
      ((turn order)^[turns] (start tag)).seen = reached := by
    intro turns hstack
    apply KeySet.ext_mem
    intro other
    rw [(Tracks.iterate order tag turns).mem_seen_iff hstack, hreached]
  have hunderway : ∀ turns < reached.toList.length + 1,
      ((turn order)^[turns] (start tag)).stack ≠ [] := by
    intro turns
    induction turns using Nat.strongRecOn with
    | _ turns ih =>
        intro hturns hstack
        have hlength := length_iterate fun earlier hearlier =>
          ih earlier hearlier (Nat.lt_trans hearlier hturns)
        rw [hstack, hseen turns hstack, List.length_nil] at hlength
        omega
  have hlength := length_iterate hunderway
  have hfew : ((turn order)^[reached.toList.length + 1] (start tag)).seen.toList.length ≤
      reached.toList.length := by
    apply KeySet.length_le_of_forall_mem
    intro other hother
    rw [hreached]
    exact (Tracks.iterate order tag _).sound other hother
  have hstack : ((turn order)^[reached.toList.length + 1] (start tag)).stack = [] :=
    List.eq_nil_of_length_eq_zero (by omega)
  refine ⟨?_, hunderway⟩
  calc
    (turn order)^[reached.toList.length + 1] (start tag)
        = ⟨((turn order)^[reached.toList.length + 1] (start tag)).seen,
            ((turn order)^[reached.toList.length + 1] (start tag)).stack⟩ := rfl
    _ = ⟨reached, []⟩ := by rw [hstack, hseen _ hstack]

end Search

end TagRows

end TickWaves
