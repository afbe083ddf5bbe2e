import TickWaves.Proofs.System.Removal

/-!
# The table is a list of systems

A table keeps descriptors under sequence numbers and sequence numbers under identifiers.
Seen from outside it is a list, the roster: whoever registers comes last, and whoever is removed is
left out.  After any requests, those that are refused included, the table stands for the roster
that the same requests make (`Table.standsFor_performAll`).
-/

namespace TickWaves

universe u

variable {β : Type u}

namespace Table

/-- What can be asked of a table. -/
inductive Request (β : Type u)
  | register (descriptor : Descriptor β)
  | unregister (id : SystemId)
  | unregisterModule (owner : ModuleId)

inductive Answer (β : Type u)
  | registered (id : SystemId)
  | returned (descriptor : Descriptor β)
  | removed (ids : List SystemId)
  /-- Nothing is done. -/
  | refused (error : TableError)

def perform (table : Table β) : Request β → Answer β × Table β
  | .register descriptor =>
      match table.register descriptor with
      | .error error => (.refused error, table)
      | .ok (id, next) => (.registered id, next)
  | .unregister id =>
      match table.unregister id with
      | .error error => (.refused error, table)
      | .ok (descriptor, next) => (.returned descriptor, next)
  | .unregisterModule owner =>
      match table.unregisterModule owner with
      | .error error => (.refused error, table)
      | .ok (ids, next) => (.removed ids, next)

def performAll (table : Table β) : List (Request β) → List (Answer β) × Table β
  | [] => ([], table)
  | request :: requests =>
      let rest := (table.perform request).2.performAll requests
      ((table.perform request).1 :: rest.1, rest.2)

/-- Takes a system out in two steps.  The identifier has gone when the entry is looked up. -/
def takeOut (table : Table β) (id : SystemId) : Answer β × Table β :=
  match table.index.lookup id with
  | none => (.refused (.unknownSystem id), table)
  | some sequence =>
      let unindexed := { table with index := table.index.filter fun entry => entry.1 != id }
      match unindexed.entries.lookup sequence with
      | none => (.refused (.unknownSystem id), unindexed)
      | some descriptor =>
          (.returned descriptor,
            { unindexed with
              entries := unindexed.entries.filter fun entry => entry.1 != sequence })

end Table

namespace Roster

/-- What a request makes of a list of systems. -/
inductive Step :
    List (Descriptor β) → Table.Request β → Table.Answer β → List (Descriptor β) → Prop
  | registered {roster : List (Descriptor β)} {descriptor : Descriptor β}
      (hassigned : descriptor.id.isAssigned = true)
      (hfree : descriptor.id ∉ roster.map Descriptor.id) :
      Step roster (.register descriptor) (.registered descriptor.id) (roster ++ [descriptor])
  /-- A system that asks for no identifier gets one that is free. -/
  | numbered {roster : List (Descriptor β)} {descriptor : Descriptor β} {id : SystemId}
      (hassigned : descriptor.id.isAssigned = false) (hid : id.isAssigned = true)
      (hfree : id ∉ roster.map Descriptor.id) :
      Step roster (.register descriptor) (.registered id) (roster ++ [descriptor.withId id])
  | duplicate {roster : List (Descriptor β)} {descriptor : Descriptor β}
      (hassigned : descriptor.id.isAssigned = true)
      (htaken : descriptor.id ∈ roster.map Descriptor.id) :
      Step roster (.register descriptor) (.refused (.duplicateId descriptor.id)) roster
  | returned {roster : List (Descriptor β)} {descriptor : Descriptor β}
      (hin : descriptor ∈ roster) :
      Step roster (.unregister descriptor.id) (.returned descriptor)
        (roster.filter fun other => other.id ≠ descriptor.id)
  | unknown {roster : List (Descriptor β)} {id : SystemId}
      (hid : id ∉ roster.map Descriptor.id) :
      Step roster (.unregister id) (.refused (.unknownSystem id)) roster
  | removed {roster : List (Descriptor β)} {owner : ModuleId}
      (howned : ∃ descriptor ∈ roster, descriptor.owner? = some owner) :
      Step roster (.unregisterModule owner)
        (.removed ((roster.filter fun other => other.owner? = some owner).map Descriptor.id))
        (roster.filter fun other => other.owner? ≠ some owner)
  | unowned {roster : List (Descriptor β)} {owner : ModuleId}
      (hnone : ∀ descriptor ∈ roster, descriptor.owner? ≠ some owner) :
      Step roster (.unregisterModule owner) (.refused (.unknownModule owner)) roster

/-- What requests make of a list of systems, one after the other. -/
inductive Run : List (Descriptor β) → List (Table.Request β) → List (Table.Answer β) →
    List (Descriptor β) → Prop
  | done (roster : List (Descriptor β)) : Run roster [] [] roster
  | step {roster next last : List (Descriptor β)} {request : Table.Request β}
      {answer : Table.Answer β} {requests : List (Table.Request β)}
      {answers : List (Table.Answer β)} :
      Step roster request answer next → Run next requests answers last →
        Run roster (request :: requests) (answer :: answers) last

end Roster

namespace Table

/-- The table shows what is in the roster, in its order and under distinct identifiers, and
refuses what cannot be done with the roster.  A refusal leaves the table as it is. -/
structure StandsFor (table : Table β) (roster : List (Descriptor β)) : Prop where
  toList_eq : table.toList = roster
  distinct : (roster.map Descriptor.id).Nodup
  assigned : ∀ descriptor ∈ roster, descriptor.id ≠ SystemId.unassigned
  index_eq : table.index = table.entries.map fun entry => (entry.2.id, entry.1)
  index_iff : ∀ id sequence, table.index.lookup id = some sequence ↔
    ∃ descriptor, (sequence, descriptor) ∈ table.entries ∧ descriptor.id = id
  ascending : table.entries.Pairwise fun earlier later => earlier.1 < later.1
  bounded : ∀ entry ∈ table.entries, entry.1 < table.nextSequence
  get?_eq : ∀ id, table.get? id = roster.find? fun descriptor => descriptor.id == id
  contains_eq : ∀ id, table.contains id = roster.any fun descriptor => descriptor.id == id
  size_eq : table.size = roster.length
  isEmpty_eq : table.isEmpty = roster.isEmpty
  systemsOf_eq : ∀ owner, table.systemsOf owner =
    (roster.filter fun descriptor => descriptor.owner? = some owner).map Descriptor.id
  register_error_iff : ∀ descriptor error, table.register descriptor = .error error ↔
    (descriptor.id.isAssigned = true ∧ descriptor.id ∈ roster.map Descriptor.id) ∧
      error = .duplicateId descriptor.id
  unregister_error_iff : ∀ id error, table.unregister id = .error error ↔
    id ∉ roster.map Descriptor.id ∧ error = .unknownSystem id
  /-- What the index leads to is there. -/
  found : ∀ id sequence, table.index.lookup id = some sequence →
    ∃ descriptor, table.entries.lookup sequence = some descriptor
  takeOut_eq : ∀ id, table.takeOut id = table.perform (.unregister id)
  unchanged : ∀ request error, (table.perform request).1 = .refused error →
    (table.perform request).2 = table

variable {table : Table β}

theorem register_eq_error_iff {descriptor : Descriptor β} {error : TableError} :
    table.register descriptor = .error error ↔
      (descriptor.id.isAssigned = true ∧ table.contains descriptor.id = true) ∧
        error = .duplicateId descriptor.id := by
  rw [Table.register]
  constructor
  · intro hregister
    split at hregister
    case isTrue hassigned =>
      split at hregister
      case isTrue htaken => exact ⟨⟨hassigned, htaken⟩, (Except.error.inj hregister).symm⟩
      case isFalse => cases hregister
    case isFalse => cases hregister
  · rintro ⟨⟨hassigned, htaken⟩, rfl⟩
    rw [if_pos hassigned, if_pos htaken]

/-- Who asks for an identifier gets this one. -/
theorem id_eq_of_register {descriptor : Descriptor β} {id : SystemId} {next : Table β}
    (hregister : table.register descriptor = .ok (id, next))
    (hassigned : descriptor.id.isAssigned = true) : id = descriptor.id := by
  rw [Table.register, if_pos hassigned] at hregister
  split at hregister
  case isTrue => cases hregister
  case isFalse => exact (Prod.mk.inj (Except.ok.inj hregister)).1.symm

theorem perform_unchanged {request : Request β} {error : TableError}
    (hrefused : (table.perform request).1 = .refused error) :
    (table.perform request).2 = table := by
  cases request with
  | register descriptor =>
      cases hregister : table.register descriptor with
      | error => rw [perform, hregister]
      | ok =>
          rw [perform, hregister] at hrefused
          cases hrefused
  | unregister id =>
      cases hunregister : table.unregister id with
      | error => rw [perform, hunregister]
      | ok =>
          rw [perform, hunregister] at hrefused
          cases hrefused
  | unregisterModule owner =>
      cases hunregister : table.unregisterModule owner with
      | error => rw [perform, hunregister]
      | ok =>
          rw [perform, hunregister] at hrefused
          cases hrefused

namespace WellFormed

variable (hwf : table.WellFormed)
include hwf

theorem perform (request : Request β) : (table.perform request).2.WellFormed := by
  cases request with
  | register descriptor =>
      rw [Table.perform]
      cases hregister : table.register descriptor with
      | error => exact hwf
      | ok => exact hwf.register hregister
  | unregister id =>
      rw [Table.perform]
      cases hunregister : table.unregister id with
      | error => exact hwf
      | ok => exact hwf.unregister hunregister
  | unregisterModule owner =>
      rw [Table.perform]
      cases hunregister : table.unregisterModule owner with
      | error => exact hwf
      | ok => exact hwf.unregisterModule hunregister

theorem step_register (descriptor : Descriptor β) :
    Roster.Step table.toList (.register descriptor) (table.perform (.register descriptor)).1
      (table.perform (.register descriptor)).2.toList := by
  rw [Table.perform]
  cases hregister : table.register descriptor with
  | error error =>
      obtain ⟨⟨hassigned, htaken⟩, rfl⟩ := register_eq_error_iff.mp hregister
      exact .duplicate hassigned (hwf.contains_eq_true_iff.mp htaken)
  | ok result =>
      obtain ⟨id, next⟩ := result
      obtain ⟨hlist, hfree⟩ := toList_of_register hregister
      have hnew : id ∉ table.toList.map Descriptor.id := by
        rw [← hwf.contains_eq_true_iff, hfree]
        exact Bool.false_ne_true
      dsimp only
      rw [hlist]
      by_cases hassigned : descriptor.id.isAssigned = true
      · obtain rfl := id_eq_of_register hregister hassigned
        exact .registered hassigned hnew
      · have hlast : descriptor.withId id ∈ next.toList := by
          rw [hlist]
          exact List.mem_append_right _ List.mem_cons_self
        have hid : id.isAssigned = true := (hwf.register hregister).assigned _ hlast
        exact .numbered (Bool.eq_false_iff.mpr hassigned) hid hnew

theorem step_unregister (id : SystemId) :
    Roster.Step table.toList (.unregister id) (table.perform (.unregister id)).1
      (table.perform (.unregister id)).2.toList := by
  rw [Table.perform]
  by_cases hid : id ∈ table.toList.map Descriptor.id
  · obtain ⟨descriptor, hdescriptor, rfl⟩ := List.mem_map.mp hid
    rw [hwf.unregister_of_mem hdescriptor]
    dsimp only
    rw [toList_without]
    simp only [List.mem_singleton]
    exact .returned hdescriptor
  · rw [hwf.unregister_of_not_mem hid]
    exact .unknown hid

theorem step_unregisterModule (owner : ModuleId) :
    Roster.Step table.toList (.unregisterModule owner) (table.perform (.unregisterModule owner)).1
      (table.perform (.unregisterModule owner)).2.toList := by
  rw [Table.perform, hwf.unregisterModule_eq]
  by_cases hnone : table.systemsOf owner = []
  · rw [if_pos hnone]
    apply Roster.Step.unowned
    intro descriptor hdescriptor howned
    rw [systemsOf_eq, List.map_eq_nil_iff, List.filter_eq_nil_iff] at hnone
    exact hnone descriptor hdescriptor (decide_eq_true howned)
  · rw [if_neg hnone]
    dsimp only
    rw [hwf.toList_without_systemsOf, systemsOf_eq]
    apply Roster.Step.removed
    by_contra hall
    push Not at hall
    apply hnone
    rw [systemsOf_eq, List.map_eq_nil_iff, List.filter_eq_nil_iff]
    intro descriptor hdescriptor howned
    exact hall descriptor hdescriptor (of_decide_eq_true howned)

/-- The roster changes as the request says. -/
theorem step_perform (request : Request β) :
    Roster.Step table.toList request (table.perform request).1
      (table.perform request).2.toList := by
  cases request with
  | register descriptor => exact hwf.step_register descriptor
  | unregister id => exact hwf.step_unregister id
  | unregisterModule owner => exact hwf.step_unregisterModule owner

theorem run_performAll (requests : List (Request β)) :
    Roster.Run table.toList requests (table.performAll requests).1
        (table.performAll requests).2.toList ∧
      (table.performAll requests).2.WellFormed := by
  induction requests generalizing table with
  | nil => exact ⟨.done _, hwf⟩
  | cons request requests ih =>
      obtain ⟨hrun, hlast⟩ := ih (hwf.perform request)
      exact ⟨.step (hwf.step_perform request) hrun, hlast⟩

/-- The second look-up of a removal finds what the first one leads to. -/
theorem exists_lookup_entries {id : SystemId} {sequence : Nat}
    (hindex : table.index.lookup id = some sequence) :
    ∃ descriptor, table.entries.lookup sequence = some descriptor := by
  obtain ⟨descriptor, hentry, -⟩ := hwf.lookup_index_eq_some_iff.mp hindex
  exact ⟨descriptor, hwf.lookup_entries_eq_some_iff.mpr hentry⟩

theorem takeOut_eq (id : SystemId) : table.takeOut id = table.perform (.unregister id) := by
  rw [takeOut, Table.perform, Table.unregister]
  cases hindex : table.index.lookup id with
  | none => rfl
  | some sequence =>
      obtain ⟨descriptor, hentry⟩ := hwf.exists_lookup_entries hindex
      dsimp only
      rw [hentry]
      rfl

theorem unregister_eq_error_iff {id : SystemId} {error : TableError} :
    table.unregister id = .error error ↔
      id ∉ table.toList.map Descriptor.id ∧ error = .unknownSystem id := by
  by_cases hid : id ∈ table.toList.map Descriptor.id
  · obtain ⟨descriptor, hdescriptor, rfl⟩ := List.mem_map.mp hid
    simp [hwf.unregister_of_mem hdescriptor, hid]
  · simp [hwf.unregister_of_not_mem hid, hid, eq_comm]

theorem get?_eq_find? (id : SystemId) :
    table.get? id = table.toList.find? fun descriptor => descriptor.id == id := by
  ext descriptor
  rw [hwf.get?_eq_some_iff]
  exact (find?_key_eq_some_iff hwf.distinct).symm

theorem contains_eq_any (id : SystemId) :
    table.contains id = table.toList.any fun descriptor => descriptor.id == id := by
  rw [Bool.eq_iff_iff, hwf.contains_eq_true_iff, List.mem_map, List.any_eq_true]
  simp only [beq_iff_eq]

theorem standsFor : table.StandsFor table.toList where
  toList_eq := rfl
  distinct := hwf.distinct
  assigned := by
    intro descriptor hdescriptor hid
    have hassigned := hwf.assigned descriptor hdescriptor
    rw [hid] at hassigned
    cases hassigned
  index_eq := hwf.index_eq
  index_iff _ _ := hwf.lookup_index_eq_some_iff
  ascending := hwf.ascending
  bounded := hwf.bounded
  get?_eq := hwf.get?_eq_find?
  contains_eq := hwf.contains_eq_any
  size_eq := (List.length_map _).symm
  isEmpty_eq := List.isEmpty_map.symm
  systemsOf_eq := systemsOf_eq table
  register_error_iff descriptor error := by
    rw [register_eq_error_iff, hwf.contains_eq_true_iff]
  unregister_error_iff _ _ := hwf.unregister_eq_error_iff
  found _ _ := hwf.exists_lookup_entries
  takeOut_eq := hwf.takeOut_eq
  unchanged _ _ := perform_unchanged

end WellFormed

/-- After any requests the table stands for the roster that they make. -/
theorem standsFor_performAll (requests : List (Request β)) :
    ∃ roster, Roster.Run [] requests ((empty : Table β).performAll requests).1 roster ∧
      ((empty : Table β).performAll requests).2.StandsFor roster := by
  obtain ⟨hrun, hwf⟩ := wellFormed_empty.run_performAll requests
  exact ⟨_, hrun, hwf.standsFor⟩

end Table

end TickWaves
