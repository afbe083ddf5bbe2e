import Mathlib.Data.List.Nodup

/-!
# Looking up values by their keys

If no two entries of a list have the same key, then what is looked up for a key is the value
that stands with it (`lookup_eq_some_iff_mem`).  The same holds of elements that carry their
keys themselves (`find?_key_eq_some_iff`).
-/

namespace TickWaves

variable {κ γ : Type*} [DecidableEq κ] {entries : List (κ × γ)}

/-- What is at a place of a list divides the list there. -/
theorem exists_eq_append_of_getElem? {α : Type*} {elements : List α} {place : Nat} {element : α}
    (helement : elements[place]? = some element) :
    ∃ front back, elements = front ++ element :: back ∧ front.length = place := by
  obtain ⟨hlt, rfl⟩ := List.getElem?_eq_some_iff.mp helement
  refine ⟨elements.take place, elements.drop (place + 1), ?_, ?_⟩
  · rw [← List.drop_eq_getElem_cons hlt, List.take_append_drop]
  · rw [List.length_take, Nat.min_eq_left (Nat.le_of_lt hlt)]

/-- Of elements with distinct keys, a search by key finds the one that has the key. -/
theorem find?_key_eq_some_iff {α : Type*} {elements : List α} {key : α → κ}
    (hnodup : (elements.map key).Nodup) {sought : κ} {element : α} :
    (elements.find? fun other => key other == sought) = some element ↔
      element ∈ elements ∧ key element = sought := by
  have hfound : ∀ {other}, (elements.find? fun other => key other == sought) = some other →
      other ∈ elements ∧ key other = sought := by
    intro other hother
    have htest := List.find?_some hother
    exact ⟨List.mem_of_find?_eq_some hother, beq_iff_eq.mp htest⟩
  constructor
  · exact hfound
  · intro helement
    obtain ⟨other, hother⟩ : ∃ other,
        (elements.find? fun other => key other == sought) = some other :=
      Option.isSome_iff_exists.mp
        (List.find?_isSome.mpr ⟨element, helement.1, beq_iff_eq.mpr helement.2⟩)
    have hkey : key other = key element := (hfound hother).2.trans helement.2.symm
    rw [hother, List.inj_on_of_nodup_map hnodup (hfound hother).1 helement.1 hkey]

theorem mem_of_lookup_eq_some {key : κ} {value : γ} (hlookup : entries.lookup key = some value) :
    (key, value) ∈ entries := by
  obtain ⟨front, back, rfl, -⟩ := List.lookup_eq_some_iff.mp hlookup
  exact List.mem_append_right _ List.mem_cons_self

theorem exists_lookup_eq_some {key : κ} (hkey : key ∈ entries.map Prod.fst) :
    ∃ value, entries.lookup key = some value := by
  obtain ⟨entry, hentry, rfl⟩ := List.mem_map.mp hkey
  exact Option.isSome_iff_exists.mp
    (List.lookup_isSome_iff.mpr ⟨entry, hentry, beq_self_eq_true _⟩)

theorem lookup_eq_none_of_not_mem {key : κ} (hkey : key ∉ entries.map Prod.fst) :
    entries.lookup key = none := by
  rw [List.lookup_eq_none_iff]
  intro entry hentry
  rw [bne_iff_ne]
  rintro rfl
  exact hkey (List.mem_map_of_mem hentry)

theorem lookup_eq_some_of_mem (hnodup : (entries.map Prod.fst).Nodup) {entry : κ × γ}
    (hentry : entry ∈ entries) : entries.lookup entry.1 = some entry.2 := by
  obtain ⟨value, hvalue⟩ := exists_lookup_eq_some (List.mem_map_of_mem hentry)
  have hsame : (entry.1, value) = entry :=
    List.inj_on_of_nodup_map hnodup (mem_of_lookup_eq_some hvalue) hentry rfl
  rw [hvalue]
  exact congrArg (fun entry => some entry.2) hsame

theorem lookup_eq_some_iff_mem (hnodup : (entries.map Prod.fst).Nodup) {key : κ} {value : γ} :
    entries.lookup key = some value ↔ (key, value) ∈ entries :=
  ⟨mem_of_lookup_eq_some, lookup_eq_some_of_mem hnodup⟩

theorem map_fst_filterMap_lookup {keys : List κ}
    (hkeys : ∀ key ∈ keys, key ∈ entries.map Prod.fst) :
    (keys.filterMap fun key => (entries.lookup key).map (key, ·)).map Prod.fst = keys := by
  induction keys with
  | nil => rfl
  | cons key keys ih =>
      obtain ⟨value, hvalue⟩ := exists_lookup_eq_some (hkeys key List.mem_cons_self)
      rw [List.filterMap_cons_some (by rw [hvalue, Option.map_some]), List.map_cons]
      exact congrArg _ (ih fun other hother => hkeys other (List.mem_cons_of_mem _ hother))

/-- Looking up every key in turn puts the entries into the order of the keys. -/
theorem filterMap_lookup_of_perm {ordered : List (κ × γ)} (hperm : ordered.Perm entries)
    (hnodup : (ordered.map Prod.fst).Nodup) :
    ((ordered.map Prod.fst).filterMap fun key => (entries.lookup key).map (key, ·)) =
      ordered := by
  have hkeys : (entries.map Prod.fst).Nodup := (hperm.map Prod.fst).nodup_iff.mp hnodup
  rw [List.filterMap_map]
  refine (List.filterMap_congr fun entry hentry => ?_).trans List.filterMap_some
  rw [Function.comp_apply, lookup_eq_some_of_mem hkeys (hperm.mem_iff.mp hentry),
    Option.map_some]

/-- Values that agree with a function of their keys are what the function gives. -/
theorem lookup_eq_of_forall {f : κ → γ} (hvalues : ∀ entry ∈ entries, entry.2 = f entry.1)
    (key : κ) :
    entries.lookup key = if key ∈ entries.map Prod.fst then some (f key) else none := by
  split
  case isTrue hkey =>
    obtain ⟨value, hvalue⟩ := exists_lookup_eq_some hkey
    rw [hvalue]
    exact congrArg some (hvalues _ (mem_of_lookup_eq_some hvalue))
  case isFalse hkey => exact lookup_eq_none_of_not_mem hkey

/-- Changing the value of one key changes what is looked up for that key only. -/
theorem lookup_map_ite (entries : List (κ × γ)) (key other : κ) (f : γ → γ) :
    (entries.map fun entry => if entry.1 = key then (entry.1, f entry.2) else entry).lookup
        other =
      if other = key then (entries.lookup other).map f else entries.lookup other := by
  induction entries with
  | nil => simp
  | cons head entries ih =>
      obtain ⟨first, value⟩ := head
      rw [List.map_cons]
      dsimp only
      by_cases hother : other = first
      · subst hother
        by_cases hkey : other = key <;> simp [hkey]
      · have hne : (other == first) = false := beq_false_of_ne hother
        by_cases hkey : first = key
        · rw [if_pos hkey, List.lookup_cons, hne, ih, List.lookup_cons, hne]
        · rw [if_neg hkey, List.lookup_cons, hne, ih, List.lookup_cons, hne]

/-- Leaving out one key changes what is looked up for that key only. -/
theorem lookup_filter_ne (entries : List (κ × γ)) (key other : κ) :
    (entries.filter fun entry => entry.1 != key).lookup other =
      if other = key then none else entries.lookup other := by
  induction entries with
  | nil => simp
  | cons head entries ih =>
      obtain ⟨first, value⟩ := head
      by_cases hfirst : first = key
      · subst hfirst
        rw [List.filter_cons_of_neg (by simp), ih, List.lookup_cons]
        by_cases hother : other = first
        · simp [hother]
        · simp [hother, beq_false_of_ne hother]
      · rw [List.filter_cons_of_pos (by simpa using hfirst), List.lookup_cons, List.lookup_cons, ih]
        by_cases hother : other = first
        · simp [hother, hfirst]
        · simp [beq_false_of_ne hother]

end TickWaves
