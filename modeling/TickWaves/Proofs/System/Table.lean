import Mathlib.Data.List.Perm.Subperm
import TickWaves.Proofs.Order.Lookup
import TickWaves.System.Table

/-!
# The table keeps its index

In a well-formed table the index lists the same systems as the entries, the entries stand
in the order of their sequence numbers, and no identifier is used twice.  Registering
keeps a table well-formed; that the number chosen for a system without an identifier is free
rests on a count of the numbers tried.
-/

namespace TickWaves.Table

universe u

variable {β : Type u} {table : Table β}

/-- The index agrees with the entries, which are in order and have distinct identifiers. -/
structure WellFormed (table : Table β) : Prop where
  index_eq : table.index = table.entries.map fun entry => (entry.2.id, entry.1)
  ascending : table.entries.Pairwise fun earlier later => earlier.1 < later.1
  bounded : ∀ entry ∈ table.entries, entry.1 < table.nextSequence
  distinct : (table.toList.map Descriptor.id).Nodup
  assigned : ∀ descriptor ∈ table.toList, descriptor.id.isAssigned = true
  nextId_pos : 0 < table.nextId

theorem wellFormed_empty : (empty : Table β).WellFormed where
  index_eq := rfl
  ascending := List.Pairwise.nil
  bounded _ hentry := by cases hentry
  distinct := List.nodup_nil
  assigned _ hmem := by cases hmem
  nextId_pos := Nat.one_pos

theorem contains_eq_true_iff_mem_index {id : SystemId} :
    table.contains id = true ↔ id ∈ table.index.map Prod.fst := by
  rw [contains]
  constructor
  · intro hsome
    obtain ⟨sequence, hlookup⟩ := Option.isSome_iff_exists.mp hsome
    exact List.mem_map_of_mem (f := Prod.fst) (mem_of_lookup_eq_some hlookup)
  · intro hmem
    obtain ⟨sequence, hlookup⟩ := exists_lookup_eq_some hmem
    rw [hlookup]
    rfl

/-- If the number found is taken, then so is every number that was tried. -/
theorem contains_add_of_contains_freeFrom {room candidate : Nat}
    (htaken : table.contains ⟨table.freeFrom room candidate⟩ = true) :
    ∀ offset ≤ room, table.contains ⟨candidate + offset⟩ = true := by
  induction room generalizing candidate with
  | zero =>
      intro offset hoffset
      obtain rfl : offset = 0 := by omega
      exact htaken
  | succ room ih =>
      intro offset hoffset
      rw [freeFrom] at htaken
      split at htaken
      · rename_i hfirst
        cases offset with
        | zero => exact hfirst
        | succ offset =>
            rw [Nat.add_comm offset 1, ← Nat.add_assoc]
            exact ih htaken offset (by omega)
      · rename_i hfirst
        exact absurd htaken hfirst

/-- The number chosen for a system is free: more numbers are tried than can be taken. -/
theorem contains_freeNumber (table : Table β) :
    table.contains ⟨table.freeNumber⟩ = false := by
  by_contra hfail
  rw [Bool.not_eq_false] at hfail
  have htaken := contains_add_of_contains_freeFrom hfail
  let tried := (List.range (table.index.length + 1)).map fun offset =>
    (⟨table.nextId + offset⟩ : SystemId)
  have hnodup : tried.Nodup := by
    refine List.Nodup.map (fun left right heq => ?_) List.nodup_range
    have hsum := congrArg SystemId.number heq
    simpa using hsum
  have hsubset : tried ⊆ table.index.map Prod.fst := by
    intro id hid
    obtain ⟨offset, hoffset, rfl⟩ := List.mem_map.mp hid
    have hle : offset ≤ table.index.length := Nat.lt_succ_iff.mp (List.mem_range.mp hoffset)
    exact contains_eq_true_iff_mem_index.mp (htaken offset hle)
  have hlength := (List.subperm_of_subset hnodup hsubset).length_le
  simp only [tried, List.length_map, List.length_range] at hlength
  omega

theorem le_freeFrom (table : Table β) (room candidate : Nat) :
    candidate ≤ table.freeFrom room candidate := by
  induction room generalizing candidate with
  | zero => exact Nat.le_refl _
  | succ room ih =>
      rw [freeFrom]
      split
      · exact Nat.le_trans (Nat.le_succ _) (ih _)
      · exact Nat.le_refl _

/-- A system is registered at the end of the list, under an identifier that was free. -/
theorem toList_of_register {descriptor : Descriptor β} {id : SystemId} {result : Table β}
    (hregister : table.register descriptor = .ok (id, result)) :
    result.toList = table.toList ++ [descriptor.withId id] ∧ table.contains id = false := by
  have happend : ∀ id, (table.append descriptor id).toList =
      table.toList ++ [descriptor.withId id] := by
    intro id
    rw [toList, Table.append, List.map_append]
    rfl
  rw [Table.register] at hregister
  split at hregister
  · split at hregister
    · cases hregister
    rename_i hfree
    obtain ⟨rfl, rfl⟩ := Prod.mk.inj (Except.ok.inj hregister)
    exact ⟨happend _, Bool.eq_false_iff.mpr hfree⟩
  · obtain ⟨rfl, rfl⟩ := Prod.mk.inj (Except.ok.inj hregister)
    exact ⟨happend _, contains_freeNumber table⟩

namespace WellFormed

theorem contains_eq_true_iff (hwf : table.WellFormed) {id : SystemId} :
    table.contains id = true ↔ id ∈ table.toList.map Descriptor.id := by
  rw [contains_eq_true_iff_mem_index, hwf.index_eq, toList, List.map_map, List.map_map]
  rfl

theorem append (hwf : table.WellFormed) (descriptor : Descriptor β) {id : SystemId}
    (hfree : table.contains id = false) (hassigned : id.isAssigned = true) :
    (table.append descriptor id).WellFormed where
  index_eq := by
    simp only [Table.append, hwf.index_eq, List.map_append, List.map_cons, List.map_nil]
    rfl
  ascending := by
    refine List.pairwise_append.mpr ⟨hwf.ascending, List.pairwise_singleton _ _, ?_⟩
    intro earlier hearlier later hlater
    rw [List.mem_singleton.mp hlater]
    exact hwf.bounded earlier hearlier
  bounded entry hentry := by
    rcases List.mem_append.mp hentry with hold | hnew
    · exact Nat.lt_succ_of_lt (hwf.bounded entry hold)
    · rw [List.mem_singleton.mp hnew]
      exact Nat.lt_succ_self _
  distinct := by
    have hfresh : id ∉ table.toList.map Descriptor.id := by
      rw [← hwf.contains_eq_true_iff, hfree]
      exact Bool.false_ne_true
    simp only [toList, Table.append, List.map_append, List.map_cons, List.map_nil]
    refine List.nodup_append.mpr ⟨hwf.distinct, List.nodup_singleton _, ?_⟩
    rintro old hold new hnew rfl
    rw [List.mem_singleton.mp hnew] at hold
    exact hfresh hold
  assigned other hother := by
    simp only [toList, Table.append, List.map_append, List.map_cons, List.map_nil] at hother
    rcases List.mem_append.mp hother with hold | hnew
    · exact hwf.assigned other hold
    · rw [List.mem_singleton.mp hnew]
      exact hassigned
  nextId_pos := hwf.nextId_pos

theorem register (hwf : table.WellFormed) {descriptor : Descriptor β} {id : SystemId}
    {result : Table β} (hregister : table.register descriptor = .ok (id, result)) :
    result.WellFormed := by
  rw [Table.register] at hregister
  split at hregister
  · rename_i hassigned
    split at hregister
    · cases hregister
    rename_i hfree
    obtain ⟨rfl, rfl⟩ := Prod.mk.inj (Except.ok.inj hregister)
    exact hwf.append descriptor (Bool.eq_false_iff.mpr hfree) hassigned
  · obtain ⟨rfl, rfl⟩ := Prod.mk.inj (Except.ok.inj hregister)
    have hpos : 0 < table.freeNumber :=
      Nat.lt_of_lt_of_le hwf.nextId_pos (le_freeFrom table _ _)
    have hassigned : (⟨table.freeNumber⟩ : SystemId).isAssigned = true := by
      simp only [SystemId.isAssigned, bne_iff_ne]
      omega
    have happend := hwf.append descriptor (contains_freeNumber table) hassigned
    exact { happend with nextId_pos := Nat.succ_pos _ }

theorem eq_of_id_eq (hwf : table.WellFormed) {left right : Nat × Descriptor β}
    (hleft : left ∈ table.entries) (hright : right ∈ table.entries)
    (heq : left.2.id = right.2.id) : left = right := by
  have hnodup := hwf.distinct
  rw [toList, List.map_map] at hnodup
  exact List.inj_on_of_nodup_map hnodup hleft hright heq

theorem nodup_sequences (hwf : table.WellFormed) : (table.entries.map Prod.fst).Nodup :=
  List.pairwise_map.mpr (hwf.ascending.imp Nat.ne_of_lt)

theorem eq_of_sequence_eq (hwf : table.WellFormed) {left right : Nat × Descriptor β}
    (hleft : left ∈ table.entries) (hright : right ∈ table.entries)
    (heq : left.1 = right.1) : left = right :=
  List.inj_on_of_nodup_map hwf.nodup_sequences hleft hright heq

/-- A sequence number leads to its entry. -/
theorem lookup_entries_eq_some_iff (hwf : table.WellFormed) {sequence : Nat}
    {descriptor : Descriptor β} :
    table.entries.lookup sequence = some descriptor ↔ (sequence, descriptor) ∈ table.entries :=
  lookup_eq_some_iff_mem hwf.nodup_sequences

/-- The index leads from an identifier to the entry that has it. -/
theorem lookup_index_eq_some_iff (hwf : table.WellFormed) {id : SystemId} {sequence : Nat} :
    table.index.lookup id = some sequence ↔
      ∃ descriptor, (sequence, descriptor) ∈ table.entries ∧ descriptor.id = id := by
  have hids : (table.index.map Prod.fst).Nodup := by
    have hdistinct := hwf.distinct
    rw [toList, List.map_map] at hdistinct
    rw [hwf.index_eq, List.map_map]
    exact hdistinct
  rw [lookup_eq_some_iff_mem hids, hwf.index_eq, List.mem_map]
  constructor
  · rintro ⟨⟨other, descriptor⟩, hentry, heq⟩
    obtain ⟨rfl, rfl⟩ := Prod.mk.inj heq
    exact ⟨descriptor, hentry, rfl⟩
  · rintro ⟨descriptor, hentry, rfl⟩
    exact ⟨(sequence, descriptor), hentry, rfl⟩

/-- Looking up an identifier finds the descriptor that has it. -/
theorem get?_eq_some_iff (hwf : table.WellFormed) {id : SystemId} {descriptor : Descriptor β} :
    table.get? id = some descriptor ↔ descriptor ∈ table.toList ∧ descriptor.id = id := by
  rw [get?, Option.bind_eq_some_iff, toList, List.mem_map]
  simp only [hwf.lookup_index_eq_some_iff, hwf.lookup_entries_eq_some_iff]
  constructor
  · rintro ⟨sequence, ⟨other, hother, hid⟩, hentry⟩
    have hsame := hwf.eq_of_sequence_eq hother hentry rfl
    exact ⟨⟨_, hentry, rfl⟩, (congrArg (fun entry => entry.2.id) hsame).symm.trans hid⟩
  · rintro ⟨⟨entry, hentry, rfl⟩, hid⟩
    exact ⟨entry.1, ⟨entry.2, hentry, hid⟩, hentry⟩

end WellFormed

end TickWaves.Table
