import TickWaves.Proofs.System.Table

/-!
# Systems taken out of the table

A well-formed table loses one system through the index, and the systems of a module by their
sequence numbers.  Both ways leave the table without some identifiers (`Table.without`), so it
does not matter in which order, or how many at a time, systems go, and what is left is a
well-formed table.
-/

namespace TickWaves.Table

universe u

variable {β : Type u} {table : Table β}

/-- What is left after a removal stands in the same order. -/
theorem toList_drop_sublist (table : Table β) (id : SystemId) (sequence : Nat) :
    (table.drop id sequence).toList.Sublist table.toList :=
  List.filter_sublist.map Prod.snd

theorem toList_unregister_sublist {id : SystemId} {descriptor : Descriptor β} {result : Table β}
    (hunregister : table.unregister id = .ok (descriptor, result)) :
    result.toList.Sublist table.toList := by
  rw [Table.unregister] at hunregister
  split at hunregister
  · cases hunregister
  split at hunregister
  · cases hunregister
  obtain ⟨-, rfl⟩ := Prod.mk.inj (Except.ok.inj hunregister)
  exact table.toList_drop_sublist id _

theorem toList_unregisterModule_sublist {owner : ModuleId} {removed : List SystemId}
    {result : Table β} (hunregister : table.unregisterModule owner = .ok (removed, result)) :
    result.toList.Sublist table.toList := by
  have hfold : ∀ (doomed : List (Nat × Descriptor β)) (table : Table β),
      (doomed.foldl (fun table entry => table.drop entry.2.id entry.1) table).toList.Sublist
        table.toList := by
    intro doomed
    induction doomed with
    | nil => exact fun table => List.Sublist.refl _
    | cons entry rest ih =>
        exact fun table => (ih _).trans (table.toList_drop_sublist entry.2.id entry.1)
  simp only [Table.unregisterModule] at hunregister
  split at hunregister
  · cases hunregister
  obtain ⟨-, rfl⟩ := Prod.mk.inj (Except.ok.inj hunregister)
  exact hfold _ table

def without (table : Table β) (removed : List SystemId) : Table β :=
  { table with
    entries := table.entries.filter fun entry => entry.2.id ∉ removed
    index := table.index.filter fun entry => entry.1 ∉ removed }

section Without

variable (table : Table β)

@[simp]
theorem without_nil : table.without [] = table := by
  simp [without]

theorem without_without (first second : List SystemId) :
    (table.without first).without second = table.without (first ++ second) := by
  simp only [without, List.filter_filter, List.mem_append, not_or, Bool.decide_and, Bool.and_comm]

/-- Only who is removed matters, not the order. -/
theorem without_eq_of_perm {removed removed' : List SystemId} (hperm : removed.Perm removed') :
    table.without removed = table.without removed' := by
  simp only [without, hperm.mem_iff]

theorem toList_without (removed : List SystemId) :
    (table.without removed).toList =
      table.toList.filter fun descriptor => descriptor.id ∉ removed := by
  rw [toList, toList, List.filter_map]
  rfl

@[simp]
theorem mem_toList_without {removed : List SystemId} {descriptor : Descriptor β} :
    descriptor ∈ (table.without removed).toList ↔
      descriptor ∈ table.toList ∧ descriptor.id ∉ removed := by
  rw [toList_without, List.mem_filter, decide_eq_true_eq]

end Without

/-- The systems of a module are those of the list that it owns. -/
theorem systemsOf_eq (table : Table β) (owner : ModuleId) :
    table.systemsOf owner =
      (table.toList.filter fun descriptor => descriptor.owner? = some owner).map
        Descriptor.id := by
  rw [systemsOf, entriesOf, toList, List.filter_map, List.map_map]
  simp only [beq_eq_decide]
  rfl

theorem systemsOf_sublist (table : Table β) (owner : ModuleId) :
    (table.systemsOf owner).Sublist (table.toList.map Descriptor.id) := by
  rw [systemsOf_eq]
  exact List.filter_sublist.map Descriptor.id

theorem mem_map_id_without {removed : List SystemId} {id : SystemId} :
    id ∈ (table.without removed).toList.map Descriptor.id ↔
      id ∈ table.toList.map Descriptor.id ∧ id ∉ removed := by
  simp only [List.mem_map, mem_toList_without]
  constructor
  · rintro ⟨descriptor, ⟨hdescriptor, hkept⟩, rfl⟩
    exact ⟨⟨descriptor, hdescriptor, rfl⟩, hkept⟩
  · rintro ⟨⟨descriptor, hdescriptor, rfl⟩, hkept⟩
    exact ⟨descriptor, ⟨hdescriptor, hkept⟩, rfl⟩

namespace WellFormed

variable (hwf : table.WellFormed)
include hwf

theorem nodup_systemsOf (owner : ModuleId) : (table.systemsOf owner).Nodup :=
  hwf.distinct.sublist (table.systemsOf_sublist owner)

theorem without (removed : List SystemId) : (table.without removed).WellFormed where
  index_eq := by
    rw [Table.without, hwf.index_eq, List.filter_map]
    rfl
  ascending := hwf.ascending.filter _
  bounded entry hentry := hwf.bounded entry (List.mem_of_mem_filter hentry)
  distinct := by
    rw [toList_without]
    exact hwf.distinct.sublist (List.filter_sublist.map Descriptor.id)
  assigned descriptor hdescriptor := by
    rw [toList_without] at hdescriptor
    exact hwf.assigned descriptor (List.mem_of_mem_filter hdescriptor)
  nextId_pos := hwf.nextId_pos

/-- The entry that is taken out is the one under its identifier. -/
theorem drop_eq_without {entry : Nat × Descriptor β} (hentry : entry ∈ table.entries) :
    table.drop entry.2.id entry.1 = table.without [entry.2.id] := by
  have hsame : ∀ other ∈ table.entries,
      (other.1 != entry.1) = decide (other.2.id ∉ [entry.2.id]) := by
    intro other hother
    rw [Bool.eq_iff_iff, bne_iff_ne, decide_eq_true_eq, List.mem_singleton]
    apply not_congr
    constructor
    · intro heq
      rw [hwf.eq_of_sequence_eq hother hentry heq]
    · intro heq
      rw [hwf.eq_of_id_eq hother hentry heq]
  have hindex : ∀ pair ∈ table.index,
      (pair.1 != entry.2.id) = decide (pair.1 ∉ [entry.2.id]) := by
    intro pair _
    rw [Bool.eq_iff_iff, bne_iff_ne, decide_eq_true_eq, List.mem_singleton]
  rw [Table.drop, Table.without, List.filter_congr hsame, List.filter_congr hindex]

/-- Entries that are taken out one after the other are those under their identifiers. -/
theorem foldl_drop_eq_without {doomed : List (Nat × Descriptor β)}
    (hdoomed : doomed.Pairwise fun earlier later => earlier.1 < later.1)
    (hmem : ∀ entry ∈ doomed, entry ∈ table.entries) :
    doomed.foldl (fun table entry => table.drop entry.2.id entry.1) table =
      table.without (doomed.map fun entry => entry.2.id) := by
  induction doomed generalizing table with
  | nil => exact table.without_nil.symm
  | cons entry rest ih =>
      obtain ⟨hlater, hrest⟩ := List.pairwise_cons.mp hdoomed
      have hentry := hmem entry List.mem_cons_self
      have hkept : ∀ other ∈ rest, other ∈ (table.without [entry.2.id]).entries := by
        intro other hother
        have hin := hmem other (List.mem_cons_of_mem _ hother)
        apply List.mem_filter.mpr
        refine ⟨hin, decide_eq_true ?_⟩
        intro hid
        have hsame := hwf.eq_of_id_eq hin hentry (List.mem_singleton.mp hid)
        exact Nat.ne_of_gt (hlater other hother) (congrArg Prod.fst hsame)
      rw [List.foldl_cons, hwf.drop_eq_without hentry, ih (hwf.without _) hrest hkept,
        without_without]
      rfl

/-- A registered system is found and taken out. -/
theorem unregister_of_mem {descriptor : Descriptor β} (hdescriptor : descriptor ∈ table.toList) :
    table.unregister descriptor.id = .ok (descriptor, table.without [descriptor.id]) := by
  obtain ⟨entry, hentry, rfl⟩ := List.mem_map.mp hdescriptor
  have hindex : table.index.lookup entry.2.id = some entry.1 :=
    hwf.lookup_index_eq_some_iff.mpr ⟨entry.2, hentry, rfl⟩
  have hfound : table.entries.lookup entry.1 = some entry.2 :=
    hwf.lookup_entries_eq_some_iff.mpr hentry
  rw [Table.unregister, hindex]
  dsimp only
  rw [hfound]
  dsimp only
  rw [hwf.drop_eq_without hentry]

theorem unregister_of_not_mem {id : SystemId} (hid : id ∉ table.toList.map Descriptor.id) :
    table.unregister id = .error (.unknownSystem id) := by
  have hindex : table.index.lookup id = none := by
    rw [← hwf.contains_eq_true_iff, contains, Bool.not_eq_true, Option.isSome_eq_false_iff] at hid
    exact Option.isNone_iff_eq_none.mp hid
  rw [Table.unregister, hindex]

theorem unregister_eq_ok {id : SystemId} {descriptor : Descriptor β} {result : Table β}
    (hunregister : table.unregister id = .ok (descriptor, result)) :
    result = table.without [id] := by
  by_cases hid : id ∈ table.toList.map Descriptor.id
  · obtain ⟨found, hfound, rfl⟩ := List.mem_map.mp hid
    rw [hwf.unregister_of_mem hfound] at hunregister
    exact (Prod.mk.inj (Except.ok.inj hunregister)).2.symm
  · rw [hwf.unregister_of_not_mem hid] at hunregister
    cases hunregister

theorem unregister {id : SystemId} {descriptor : Descriptor β} {result : Table β}
    (hunregister : table.unregister id = .ok (descriptor, result)) : result.WellFormed := by
  rw [hwf.unregister_eq_ok hunregister]
  exact hwf.without [id]

theorem mem_toList_unregister {id : SystemId} {descriptor other : Descriptor β}
    {result : Table β} (hunregister : table.unregister id = .ok (descriptor, result)) :
    other ∈ result.toList ↔ other ∈ table.toList ∧ other.id ≠ id := by
  rw [hwf.unregister_eq_ok hunregister, mem_toList_without, List.mem_singleton]

/-- A module goes with all that it owns. -/
theorem unregisterModule_eq (owner : ModuleId) :
    table.unregisterModule owner =
      if table.systemsOf owner = [] then .error (.unknownModule owner)
      else .ok (table.systemsOf owner, table.without (table.systemsOf owner)) := by
  have hnone : (table.entriesOf owner).isEmpty = true ↔ table.systemsOf owner = [] := by
    rw [List.isEmpty_iff, systemsOf, List.map_eq_nil_iff]
  have hdrop : (table.entriesOf owner).foldl
      (fun table entry => table.drop entry.2.id entry.1) table =
        table.without (table.systemsOf owner) :=
    hwf.foldl_drop_eq_without (hwf.ascending.filter _) fun _ => List.mem_of_mem_filter
  simp only [Table.unregisterModule, hnone, hdrop]
  rfl

theorem unregisterModule_eq_ok {owner : ModuleId} {removed : List SystemId} {result : Table β}
    (hunregister : table.unregisterModule owner = .ok (removed, result)) :
    result = table.without removed := by
  rw [hwf.unregisterModule_eq] at hunregister
  split at hunregister
  case isTrue => cases hunregister
  case isFalse =>
    obtain ⟨rfl, rfl⟩ := Prod.mk.inj (Except.ok.inj hunregister)
    rfl

theorem unregisterModule {owner : ModuleId} {removed : List SystemId} {result : Table β}
    (hunregister : table.unregisterModule owner = .ok (removed, result)) :
    result.WellFormed := by
  rw [hwf.unregisterModule_eq_ok hunregister]
  exact hwf.without removed

theorem mem_toList_unregisterModule {owner : ModuleId} {removed : List SystemId}
    {result : Table β} (hunregister : table.unregisterModule owner = .ok (removed, result))
    {descriptor : Descriptor β} :
    descriptor ∈ result.toList ↔ descriptor ∈ table.toList ∧ descriptor.id ∉ removed := by
  rw [hwf.unregisterModule_eq_ok hunregister, mem_toList_without]

/-- What is left is what the module does not own. -/
theorem toList_without_systemsOf (owner : ModuleId) :
    (table.without (table.systemsOf owner)).toList =
      table.toList.filter fun descriptor => descriptor.owner? ≠ some owner := by
  rw [toList_without]
  apply List.filter_congr
  intro descriptor hdescriptor
  rw [decide_eq_decide, systemsOf_eq, List.mem_map]
  apply not_congr
  constructor
  · rintro ⟨other, hother, hid⟩
    obtain ⟨hmem, howned⟩ := List.mem_filter.mp hother
    obtain rfl := List.inj_on_of_nodup_map hwf.distinct hmem hdescriptor hid
    exact of_decide_eq_true howned
  · intro howned
    exact ⟨descriptor, List.mem_filter.mpr ⟨hdescriptor, decide_eq_true howned⟩, rfl⟩

end WellFormed

end TickWaves.Table
