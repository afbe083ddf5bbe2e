import TickWaves.Order.KeySet
import TickWaves.Proofs.Order.Lookup

/-!
# Ascending lists and binary search

A finite set keeps its elements in ascending order, so an element is found, put in or taken out
by halving the list (`search`), and two sets are compared by walking their lists side by side
(`meet_eq_sideBySide`).  On a list that is not in order the search may miss what is there; on an
ascending one it tells where the element is or belongs (`locates_search`).
-/

namespace TickWaves

universe u

open Keyed

namespace KeySet

variable {α : Type u} [Keyed α]

/-- What a search tells. -/
inductive Finding
  /-- The place where the element is. -/
  | present (place : Nat)
  /-- The place where the element belongs. -/
  | absent (place : Nat)
  deriving DecidableEq

def Finding.isPresent : Finding → Bool
  | .present _ => true
  | .absent _ => false

/-- Halves a segment of a list until one place is left.  The part behind the middle is kept unless
it starts above the element. -/
def narrow (elements : List α) (a : α) (start size : Nat) : Nat :=
  if size ≤ 1 then start
  else if elements[start + size / 2]?.any fun b => decide (key a < key b) then
    narrow elements a start (size - size / 2)
  else narrow elements a (start + size / 2) (size - size / 2)
termination_by size

def search (elements : List α) (a : α) : Finding :=
  let place := narrow elements a 0 elements.length
  match elements[place]? with
  | none => .absent place
  | some b =>
      if key b = key a then .present place
      else if key b < key a then .absent (place + 1)
      else .absent place

/-- Whether two lists have an element in common: whichever head is smaller is left behind. -/
def sideBySide : List α → List α → Bool
  | [], _ => false
  | _, [] => false
  | a :: left, b :: right =>
      if key a < key b then sideBySide left (b :: right)
      else if key b < key a then sideBySide (a :: left) right
      else true
termination_by left right => left.length + right.length

/-- What was found is true of the list. -/
inductive Locates (a : α) : List α → Finding → Prop
  | present (front back : List α) (hfront : ∀ b ∈ front, key b < key a)
      (hback : ∀ b ∈ back, key a < key b) :
      Locates a (front ++ a :: back) (.present front.length)
  | absent (front back : List α) (hfront : ∀ b ∈ front, key b < key a)
      (hback : ∀ b ∈ back, key a < key b) :
      Locates a (front ++ back) (.absent front.length)

section Narrow

/-- A segment of a list is left in which the element must be if it is there at all. -/
structure Encloses (elements : List α) (a : α) (start size : Nat) : Prop where
  size_pos : 0 < size
  end_le : start + size ≤ elements.length
  start_le : ∀ b, elements[start]? = some b → start = 0 ∨ key b ≤ key a
  beyond : ∀ place b, start + size ≤ place → elements[place]? = some b → key a < key b

variable {elements : List α} (hasc : elements.Pairwise fun x y => key x < key y)
include hasc

theorem key_lt_of_getElem? {first second : Nat} (hlt : first < second) {a b : α}
    (ha : elements[first]? = some a) (hb : elements[second]? = some b) : key a < key b := by
  obtain ⟨hfirst, rfl⟩ := List.getElem?_eq_some_iff.mp ha
  obtain ⟨hsecond, rfl⟩ := List.getElem?_eq_some_iff.mp hb
  exact List.pairwise_iff_getElem.mp hasc first second hfirst hsecond hlt

theorem encloses_narrow {a : α} {start size : Nat} (hencloses : Encloses elements a start size) :
    Encloses elements a (narrow elements a start size) 1 := by
  fun_induction narrow elements a start size with
  | case1 start size hsize =>
      obtain rfl : size = 1 := Nat.le_antisymm hsize hencloses.size_pos
      exact hencloses
  | case2 start size hsize habove ih =>
      -- The middle is above the element, and so is everything behind it.
      have hend := hencloses.end_le
      obtain ⟨middle, hmiddle, hlt⟩ : ∃ middle, elements[start + size / 2]? = some middle ∧
          key a < key middle := by
        cases hmiddle : elements[start + size / 2]? with
        | none =>
            rw [hmiddle] at habove
            cases habove
        | some middle =>
            rw [hmiddle] at habove
            exact ⟨middle, rfl, of_decide_eq_true habove⟩
      apply ih
      constructor
      case size_pos => omega
      case end_le => omega
      case start_le => exact hencloses.start_le
      case beyond =>
        intro place b hplace hb
        by_cases hplace' : place = start + size / 2
        · rw [hplace', hmiddle] at hb
          rwa [← Option.some.inj hb]
        · exact Nat.lt_trans hlt (key_lt_of_getElem? hasc (by omega) hmiddle hb)
  | case3 start size hsize hnot ih =>
      have hend := hencloses.end_le
      apply ih
      constructor
      case size_pos => omega
      case end_le => omega
      case start_le =>
        intro middle hmiddle
        rw [hmiddle] at hnot
        exact Or.inr (by simpa using hnot)
      case beyond =>
        intro place b hplace hb
        exact hencloses.beyond place b (by omega) hb

omit hasc in
theorem search_nil (a : α) : search [] a = .absent 0 := by
  rw [search, List.length_nil, narrow, if_pos (Nat.zero_le 1)]
  rfl

/-- The search of an ascending list tells where the element is or belongs. -/
theorem locates_search (a : α) : Locates a elements (search elements a) := by
  by_cases hnil : elements = []
  · subst hnil
    rw [search_nil]
    exact Locates.absent [] [] (List.forall_mem_nil _) (List.forall_mem_nil _)
  have hwhole : Encloses elements a 0 elements.length := by
    constructor
    case size_pos => exact List.length_pos_of_ne_nil hnil
    case end_le => omega
    case start_le => exact fun _ _ => Or.inl rfl
    case beyond =>
      intro place b hplace hb
      rw [List.getElem?_eq_none (by omega)] at hb
      cases hb
  have hleft := encloses_narrow hasc hwhole
  rw [search]
  generalize narrow elements a 0 elements.length = place at hleft
  obtain ⟨b, hb⟩ : ∃ b, elements[place]? = some b := ⟨_, List.getElem?_eq_getElem hleft.end_le⟩
  have hstart := hleft.start_le b hb
  have hbeyond : ∀ c ∈ elements.drop (place + 1), key a < key c := by
    intro c hc
    obtain ⟨offset, hoffset⟩ := List.getElem?_of_mem hc
    rw [List.getElem?_drop] at hoffset
    exact hleft.beyond _ c (Nat.le_add_right _ _) hoffset
  obtain ⟨front, back, rfl, rfl⟩ := exists_eq_append_of_getElem? hb
  rw [List.drop_length_add_append, List.drop_one, List.tail_cons] at hbeyond
  have hbelow : ∀ c ∈ front, key c < key b := by
    intro c hc
    exact (List.pairwise_append.mp hasc).2.2 c hc b List.mem_cons_self
  rw [hb]
  dsimp only
  split
  case isTrue hkey =>
    obtain rfl := key_injective hkey
    exact .present front back hbelow hbeyond
  case isFalse hne =>
    split
    case isTrue hlt =>
      have hfront : ∀ c ∈ front ++ [b], key c < key a := by
        intro c hc
        rcases List.mem_append.mp hc with hc | hc
        · exact Nat.lt_trans (hbelow c hc) hlt
        · rwa [List.mem_singleton.mp hc]
      have habsent := Locates.absent (front ++ [b]) back hfront hbeyond
      rwa [List.append_assoc, List.singleton_append, List.length_append] at habsent
    case isFalse hnot =>
      -- The place left is above the element, so the search never went past the first one.
      have hfront : front = [] := by
        rcases hstart with hzero | hle
        · exact List.eq_nil_of_length_eq_zero hzero
        · exact absurd (Nat.lt_of_le_of_ne hle hne) hnot
      subst hfront
      have hgt : key a < key b := Nat.lt_of_le_of_ne (Nat.le_of_not_lt hnot) (Ne.symm hne)
      exact Locates.absent [] (b :: back) (List.forall_mem_nil _)
        (List.forall_mem_cons.mpr ⟨hgt, hbeyond⟩)

end Narrow

section Edits

def Finding.put (a : α) (elements : List α) : Finding → List α
  | .present _ => elements
  | .absent place => elements.insertIdx place a

def Finding.takeOut (elements : List α) : Finding → List α
  | .present place => elements.eraseIdx place
  | .absent _ => elements

variable {a : α} {front back : List α}

theorem place_append (hfront : ∀ b ∈ front, key b < key a) :
    place a (front ++ back) = front ++ place a back := by
  induction front with
  | nil => rfl
  | cons b front ih =>
      obtain ⟨hb, hfront⟩ := List.forall_mem_cons.mp hfront
      rw [List.cons_append, place, if_neg (Nat.lt_asymm hb), if_pos hb, ih hfront,
        List.cons_append]

theorem place_of_lt (hback : ∀ b ∈ back, key a < key b) : place a back = a :: back := by
  cases back with
  | nil => rfl
  | cons b back => rw [place, if_pos (hback b List.mem_cons_self)]

theorem place_cons_self : place a (a :: back) = a :: back := by
  rw [place, if_neg (Nat.lt_irrefl _), if_neg (Nat.lt_irrefl _)]

omit [Keyed α] in
theorem insertIdx_length_append :
    (front ++ back).insertIdx front.length a = front ++ a :: back := by
  induction front with
  | nil => rfl
  | cons b front ih =>
      rw [List.cons_append, List.length_cons, List.insertIdx_succ_cons, ih, List.cons_append]

theorem filter_ne_of_forall {elements : List α} (hne : ∀ b ∈ elements, key b ≠ key a) :
    elements.filter (fun b => key b != key a) = elements := by
  rw [List.filter_eq_self]
  intro b hb
  exact bne_iff_ne.mpr (hne b hb)

namespace Locates

variable {elements : List α} {finding : Finding}

theorem mem_iff (hfinding : Locates a elements finding) :
    a ∈ elements ↔ finding.isPresent = true := by
  cases hfinding with
  | present front back _ _ =>
      exact iff_of_true (List.mem_append_right _ List.mem_cons_self) rfl
  | absent front back hfront hback =>
      have hnot : a ∉ front ++ back := by
        intro ha
        rcases List.mem_append.mp ha with ha | ha
        · exact Nat.lt_irrefl _ (hfront a ha)
        · exact Nat.lt_irrefl _ (hback a ha)
      exact iff_of_false hnot Bool.false_ne_true

theorem put_eq (hfinding : Locates a elements finding) :
    finding.put a elements = place a elements := by
  cases hfinding with
  | present front back hfront hback =>
      rw [place_append hfront, place_cons_self, Finding.put]
  | absent front back hfront hback =>
      rw [place_append hfront, place_of_lt hback, Finding.put, insertIdx_length_append]

theorem takeOut_eq (hfinding : Locates a elements finding) :
    finding.takeOut elements = elements.filter fun b => key b != key a := by
  cases hfinding with
  | present front back hfront hback =>
      have hleft := filter_ne_of_forall fun b hb => Nat.ne_of_lt (hfront b hb)
      have hright := filter_ne_of_forall fun b hb => Nat.ne_of_gt (hback b hb)
      rw [List.filter_append, hleft, List.filter_cons_of_neg (by simp), hright, Finding.takeOut,
        List.eraseIdx_append_of_length_le (Nat.le_refl _), Nat.sub_self, List.eraseIdx_cons_zero]
  | absent front back hfront hback =>
      have hleft := filter_ne_of_forall fun b hb => Nat.ne_of_lt (hfront b hb)
      have hright := filter_ne_of_forall fun b hb => Nat.ne_of_gt (hback b hb)
      rw [List.filter_append, hleft, hright, Finding.takeOut]

end Locates

/-- An element is in a set if the search says that it is there. -/
theorem mem_iff_isPresent_search {s : KeySet α} :
    a ∈ s ↔ (search s.toList a).isPresent = true :=
  (locates_search s.ascending a).mem_iff

/-- One more element goes where the search says that it belongs. -/
theorem toList_insert (s : KeySet α) (a : α) :
    (s.insert a).toList = (search s.toList a).put a s.toList :=
  (locates_search s.ascending a).put_eq.symm

/-- An element is taken out where the search says that it is. -/
theorem toList_erase (s : KeySet α) (a : α) :
    (s.erase a).toList = (search s.toList a).takeOut s.toList :=
  (locates_search s.ascending a).takeOut_eq.symm

end Edits

section SideBySide

theorem meet_nil (left : List α) : meet left [] = false := by
  induction left with
  | nil => rfl
  | cons a left ih => rw [meet, List.dropWhile_nil, ih]; rfl

/-- Leaving behind what is smaller than the head of the other list misses nothing, whether the
lists are in order or not. -/
theorem meet_eq_sideBySide (left right : List α) : meet left right = sideBySide left right := by
  fun_induction sideBySide left right with
  | case1 right => rfl
  | case2 left hleft => exact meet_nil left
  | case3 a left b right hlt ih =>
      have hnot : ¬ key b < key a := Nat.lt_asymm hlt
      have hne : ¬ key b = key a := Nat.ne_of_gt hlt
      rw [meet, List.dropWhile_cons_of_neg (by simpa using hnot)]
      simp [hne, ih]
  | case4 a left b right hnot hlt ih =>
      rw [meet, List.dropWhile_cons_of_pos (by simpa using hlt), ← ih, meet]
  | case5 a left b right hnot hnot' =>
      have heq : key b = key a := by omega
      rw [meet, List.dropWhile_cons_of_neg (by simpa using hnot')]
      simp [heq]

end SideBySide

end KeySet

end TickWaves
