/-!
# Finite sets kept in ascending order

Identifiers of components, tags and systems are compared only through the number they
carry.  `Keyed` says that the number determines the element, so an order on elements is
the order on their keys and every comparison is one about `Nat`.

A `KeySet` lists its elements by strictly ascending key.  The order is part of the
type, so a set has one representation: two sets are equal as soon as they have the
same elements (`KeySet.ext_mem`), whatever the order of the insertions was.
-/

namespace TickWaves

universe u

/-- An element that is determined by a natural number. -/
class Keyed (α : Type u) where
  key : α → Nat
  /-- Two elements with one number are the same element. -/
  key_injective : ∀ {a b : α}, key a = key b → a = b

namespace Keyed

theorem key_eq_iff {α : Type u} [Keyed α] {a b : α} : key a = key b ↔ a = b :=
  ⟨key_injective, fun heq => heq ▸ rfl⟩

instance : Keyed Nat where
  key number := number
  key_injective heq := heq

instance : Keyed UInt64 where
  key word := word.toNat
  key_injective heq := UInt64.toNat_inj.mp heq

end Keyed

open Keyed

/-- A finite set of keyed elements, listed by strictly ascending key. -/
structure KeySet (α : Type u) [Keyed α] where
  /-- The elements, smallest key first. -/
  toList : List α
  /-- Every element comes before all elements of larger key, and none twice. -/
  ascending : toList.Pairwise fun a b => key a < key b

namespace KeySet

variable {α : Type u} [Keyed α]

theorem ext_toList {s t : KeySet α} (heq : s.toList = t.toList) : s = t := by
  cases s
  cases t
  cases heq
  rfl

instance [DecidableEq α] : DecidableEq (KeySet α) := fun s t =>
  decidable_of_iff (s.toList = t.toList) ⟨ext_toList, fun heq => heq ▸ rfl⟩

instance : Membership α (KeySet α) where
  mem s a := a ∈ s.toList

theorem mem_def {a : α} {s : KeySet α} : a ∈ s ↔ a ∈ s.toList := Iff.rfl

instance [DecidableEq α] (a : α) (s : KeySet α) : Decidable (a ∈ s) :=
  inferInstanceAs (Decidable (a ∈ s.toList))

def empty : KeySet α := ⟨[], List.Pairwise.nil⟩

instance : Inhabited (KeySet α) := ⟨empty⟩

def isEmpty (s : KeySet α) : Bool := s.toList.isEmpty

/-- The ascending list with one more element, put in its place unless it is there. -/
def place (a : α) : List α → List α
  | [] => [a]
  | b :: rest =>
      if key a < key b then a :: b :: rest
      else if key b < key a then b :: place a rest
      else b :: rest

theorem mem_place {a x : α} {elements : List α} :
    x ∈ place a elements ↔ x = a ∨ x ∈ elements := by
  induction elements with
  | nil => simp [place]
  | cons b rest ih =>
      by_cases hab : key a < key b
      · simp [place, hab]
      by_cases hba : key b < key a
      · simp only [place, if_neg hab, if_pos hba, List.mem_cons, ih]
        constructor
        · rintro (h | h | h) <;> simp [h]
        · rintro (h | h | h) <;> simp [h]
      · have heq : a = b := key_injective (by omega)
        subst heq
        simp only [place, if_neg hab, List.mem_cons]
        constructor
        · rintro (h | h) <;> simp [h]
        · rintro (h | h | h) <;> simp [h]

theorem length_place_le (a : α) (elements : List α) :
    (place a elements).length ≤ elements.length + 1 := by
  induction elements with
  | nil => simp [place]
  | cons b rest ih =>
      simp only [place]
      split
      · simp
      · split
        · simpa using ih
        · simp

theorem place_ascending (a : α) {elements : List α}
    (hasc : elements.Pairwise fun x y => key x < key y) :
    (place a elements).Pairwise fun x y => key x < key y := by
  induction elements with
  | nil => simp [place]
  | cons b rest ih =>
      have hb := List.pairwise_cons.mp hasc
      by_cases hab : key a < key b
      · simp only [place, if_pos hab]
        refine List.pairwise_cons.mpr ⟨fun x hx => ?_, hasc⟩
        rcases List.mem_cons.mp hx with rfl | hx
        · exact hab
        · exact Nat.lt_trans hab (hb.1 x hx)
      by_cases hba : key b < key a
      · simp only [place, if_neg hab, if_pos hba]
        refine List.pairwise_cons.mpr ⟨fun x hx => ?_, ih hb.2⟩
        rcases mem_place.mp hx with rfl | hx
        · exact hba
        · exact hb.1 x hx
      · simpa only [place, if_neg hab, if_neg hba] using hasc

def insert (s : KeySet α) (a : α) : KeySet α :=
  ⟨place a s.toList, place_ascending a s.ascending⟩

theorem length_insert_le (s : KeySet α) (a : α) :
    (s.insert a).toList.length ≤ s.toList.length + 1 :=
  length_place_le a s.toList

def erase (s : KeySet α) (a : α) : KeySet α :=
  ⟨s.toList.filter fun b => key b != key a, s.ascending.filter _⟩

/-- The set of the elements of a list, in any order and with repetitions. -/
def ofList (elements : List α) : KeySet α :=
  elements.foldl insert empty

/-- Walks two ascending lists side by side: whatever is below the head of the first
list can meet none of its elements and is dropped. -/
def meet : List α → List α → Bool
  | [], _ => false
  | a :: rest, elements =>
      let later := elements.dropWhile fun b => decide (key b < key a)
      (later.head?.any fun b => key b == key a) || meet rest later

def meets (s t : KeySet α) : Bool :=
  meet s.toList t.toList

@[simp]
theorem not_mem_empty (a : α) : ¬ a ∈ (empty : KeySet α) :=
  List.not_mem_nil

@[simp]
theorem mem_insert {s : KeySet α} {a x : α} : x ∈ s.insert a ↔ x = a ∨ x ∈ s :=
  mem_place

@[simp]
theorem mem_erase {s : KeySet α} {a x : α} : x ∈ s.erase a ↔ x ∈ s ∧ x ≠ a := by
  simp [mem_def, erase, key_eq_iff]

theorem mem_foldl_insert {s : KeySet α} {elements : List α} {x : α} :
    x ∈ elements.foldl insert s ↔ x ∈ s ∨ x ∈ elements := by
  induction elements generalizing s with
  | nil => simp
  | cons a rest ih =>
      simp only [List.foldl_cons, ih, mem_insert, List.mem_cons]
      constructor
      · rintro ((h | h) | h) <;> simp [h]
      · rintro (h | h | h) <;> simp [h]

/-- An ascending list is determined by its elements. -/
theorem eq_of_mem_iff {left right : List α}
    (hleft : left.Pairwise fun a b => key a < key b)
    (hright : right.Pairwise fun a b => key a < key b)
    (hmem : ∀ a, a ∈ left ↔ a ∈ right) : left = right := by
  induction left generalizing right with
  | nil =>
      cases right with
      | nil => rfl
      | cons b _ => exact absurd ((hmem b).mpr List.mem_cons_self) List.not_mem_nil
  | cons a left ih =>
      cases right with
      | nil => exact absurd ((hmem a).mp List.mem_cons_self) List.not_mem_nil
      | cons b right =>
          obtain ⟨ha, hleft'⟩ := List.pairwise_cons.mp hleft
          obtain ⟨hb, hright'⟩ := List.pairwise_cons.mp hright
          have hab : a = b := by
            rcases List.mem_cons.mp ((hmem a).mp List.mem_cons_self) with heq | hin
            · exact heq
            rcases List.mem_cons.mp ((hmem b).mpr List.mem_cons_self) with heq | hin'
            · exact heq.symm
            have hlt := ha b hin'
            have hgt := hb a hin
            omega
          subst hab
          refine congrArg (a :: ·) (ih hleft' hright' fun c => ?_)
          constructor
          · intro hc
            rcases List.mem_cons.mp ((hmem c).mp (List.mem_cons_of_mem a hc)) with rfl | hin
            · exact absurd (ha c hc) (Nat.lt_irrefl _)
            · exact hin
          · intro hc
            rcases List.mem_cons.mp ((hmem c).mpr (List.mem_cons_of_mem a hc)) with rfl | hin
            · exact absurd (hb c hc) (Nat.lt_irrefl _)
            · exact hin

/-- Two sets with the same elements are the same set. -/
theorem ext_mem {s t : KeySet α} (hmem : ∀ a, a ∈ s ↔ a ∈ t) : s = t :=
  ext_toList (eq_of_mem_iff s.ascending t.ascending hmem)

@[simp]
theorem mem_ofList {elements : List α} {x : α} : x ∈ ofList elements ↔ x ∈ elements := by
  simp [ofList, mem_foldl_insert]

/-- Dropping what is below an element loses nothing that is not below it. -/
theorem mem_dropWhile_of_le {a x : α} {elements : List α} (hle : key a ≤ key x) :
    x ∈ (elements.dropWhile fun b => decide (key b < key a)) ↔ x ∈ elements := by
  induction elements with
  | nil => simp
  | cons b rest ih =>
      by_cases hb : key b < key a
      · have hne : x ≠ b := by
          rintro rfl
          omega
        simp [hb, ih, hne]
      · simp [hb]

/-- The first element that is not below `a` is `a`, if `a` is there at all. -/
theorem any_head?_dropWhile_iff {a : α} {elements : List α}
    (hasc : elements.Pairwise fun x y => key x < key y) :
    ((elements.dropWhile fun b => decide (key b < key a)).head?.any fun b => key b == key a)
        = true ↔ a ∈ elements := by
  induction elements with
  | nil => simp
  | cons b rest ih =>
      obtain ⟨hb, hrest⟩ := List.pairwise_cons.mp hasc
      by_cases hlt : key b < key a
      · have hne : a ≠ b := by
          rintro rfl
          omega
        simp [hlt, ih hrest, hne]
      · have hnot : a ∉ rest := fun hin => hlt (hb a hin)
        have hhead : (key b == key a) = true ↔ a = b :=
          beq_iff_eq.trans (key_eq_iff.trans ⟨Eq.symm, Eq.symm⟩)
        simp only [List.dropWhile_cons, hlt, decide_false, List.head?_cons, Option.any_some,
          hhead, List.mem_cons, hnot, or_false, Bool.false_eq_true, if_false]

theorem meet_eq_true_iff {left right : List α}
    (hleft : left.Pairwise fun x y => key x < key y)
    (hright : right.Pairwise fun x y => key x < key y) :
    meet left right = true ↔ ∃ a, a ∈ left ∧ a ∈ right := by
  induction left generalizing right with
  | nil => simp [meet]
  | cons a rest ih =>
      obtain ⟨ha, hrest⟩ := List.pairwise_cons.mp hleft
      have hlater := hright.sublist (List.dropWhile_sublist fun b => decide (key b < key a))
      simp only [meet, Bool.or_eq_true, any_head?_dropWhile_iff hright, ih hrest hlater]
      constructor
      · rintro (hin | ⟨b, hb, hin⟩)
        · exact ⟨a, List.mem_cons_self, hin⟩
        · exact ⟨b, List.mem_cons_of_mem a hb,
            (mem_dropWhile_of_le (Nat.le_of_lt (ha b hb))).mp hin⟩
      · rintro ⟨b, hb, hin⟩
        rcases List.mem_cons.mp hb with rfl | hb
        · exact Or.inl hin
        · exact Or.inr ⟨b, hb, (mem_dropWhile_of_le (Nat.le_of_lt (ha b hb))).mpr hin⟩

/-- Two sets meet if they have an element in common. -/
theorem meets_eq_true_iff {s t : KeySet α} : s.meets t = true ↔ ∃ a, a ∈ s ∧ a ∈ t :=
  meet_eq_true_iff s.ascending t.ascending

end KeySet

end TickWaves
