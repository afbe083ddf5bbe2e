import Mathlib.Order.Bounds.Basic
import TickWaves.Proofs.System.Roster

/-!
# Numbers for systems

A system that asks for no identifier gets the least number that is free and above all numbers
given out before, so none is given out twice, even if its system is removed.  The counter passes
over numbers that are taken.  Each of these was registered once, and it is passed over once, so
the counter stays within the number of registrations, however high the identifiers are that
systems ask for.  Hence counters that are machine words do just as well, as long as there are fewer
registrations than words (`Table.numbersSystems_of_length_lt`).
-/

namespace TickWaves.Table

universe u

variable {β : Type u}

def Answer.registered? : Answer β → Option SystemId
  | .registered id => some id
  | .returned _ => none
  | .removed _ => none
  | .refused _ => none

/-- The identifier that the table has chosen, if it has chosen one. -/
def Request.chosen? : Request β → Answer β → Option SystemId
  | .register descriptor, answer =>
      if descriptor.id.isAssigned then none else answer.registered?
  | .unregister _, _ => none
  | .unregisterModule _, _ => none

def registeredIn (table : Table β) (requests : List (Request β)) : List SystemId :=
  (table.performAll requests).1.filterMap Answer.registered?

def chosenIn (table : Table β) (requests : List (Request β)) : List SystemId :=
  (requests.zip (table.performAll requests).1).filterMap fun (request, answer) =>
    request.chosen? answer

section Words

/-- The counter after this one, unless it overflows. -/
def increment? (counter : UInt64) : Option UInt64 :=
  if counter.toNat + 1 < UInt64.size then some (counter + 1) else none

theorem toNat_of_increment? {counter next : UInt64} (hnext : increment? counter = some next) :
    next.toNat = counter.toNat + 1 := by
  rw [increment?] at hnext
  split at hnext
  case isTrue hroom =>
    rw [← Option.some.inj hnext, UInt64.toNat_add]
    exact Nat.mod_eq_of_lt hroom
  case isFalse => cases hnext

/-- The first number from a counter on that is no registered identifier, unless the counter
overflows. -/
def seek? (table : Table β) (counter : UInt64) : Option UInt64 :=
  if table.contains ⟨counter.toNat⟩ then
    match _ : increment? counter with
    | none => none
    | some next => table.seek? next
  else some counter
termination_by UInt64.size - counter.toNat
decreasing_by
  have hmoved := toNat_of_increment? ‹increment? counter = some next›
  have hbound := next.toNat_lt_size
  omega

def appendInWords? (table : Table β) (descriptor : Descriptor β) (id : SystemId) :
    Option (Table β) :=
  (increment? (UInt64.ofNat table.nextSequence)).map fun next =>
    { table.append descriptor id with nextSequence := next.toNat }

/-- Registers a system with counters that are machine words.  There is no result if one of them
overflows. -/
def registerInWords? (table : Table β) (descriptor : Descriptor β) :
    Option (Answer β × Table β) :=
  if descriptor.id.isAssigned then
    if table.contains descriptor.id then some (.refused (.duplicateId descriptor.id), table)
    else (table.appendInWords? descriptor descriptor.id).map (.registered descriptor.id, ·)
  else
    (table.seek? (UInt64.ofNat table.nextId)).bind fun number =>
      (increment? number).bind fun next =>
        ({ table with nextId := next.toNat }.appendInWords? descriptor ⟨number.toNat⟩).map
          (.registered ⟨number.toNat⟩, ·)

def performInWords? (table : Table β) : Request β → Option (Answer β × Table β)
  | .register descriptor => table.registerInWords? descriptor
  | .unregister id => some (table.perform (.unregister id))
  | .unregisterModule owner => some (table.perform (.unregisterModule owner))

def performAllInWords? (table : Table β) :
    List (Request β) → Option (List (Answer β) × Table β)
  | [] => some ([], table)
  | request :: requests =>
      (table.performInWords? request).bind fun step =>
        (step.2.performAllInWords? requests).map fun rest => (step.1 :: rest.1, rest.2)

end Words

/-- What some requests make of a table that starts empty.  Its counters fit into machine words,
and the systems that ask for no identifier get the least numbers that are free and have not been
given out. -/
structure NumbersSystems (requests : List (Request β)) : Prop where
  performAllInWords?_eq :
    (empty : Table β).performAllInWords? requests = some (empty.performAll requests)
  isLeast : ∀ front descriptor back, requests = front ++ .register descriptor :: back →
    descriptor.id.isAssigned = false →
      ∃ number, ((empty.performAll front).2.perform (.register descriptor)).1 =
          .registered ⟨number⟩ ∧
        IsLeast {candidate | 0 < candidate ∧
          (empty.performAll front).2.contains ⟨candidate⟩ = false ∧
          ∀ earlier ∈ empty.chosenIn front, earlier.number < candidate} number
  ascending :
    (empty.chosenIn requests).Pairwise fun earlier later => earlier.number < later.number
  nextId_le : ∀ front back, requests = front ++ back →
    (empty.performAll front).2.nextId ≤ 1 + (empty.registeredIn front).length

/-- The counters of a table tell what was registered in it so far, and which numbers among these
it has chosen. -/
structure Counts (table : Table β) (registered chosen : List SystemId) : Prop where
  nextSequence_eq : table.nextSequence = registered.length
  mem_of_contains : ∀ id, table.contains id = true → id ∈ registered
  /-- A number that the counter has passed was registered. -/
  passed : ∀ number, 0 < number → number < table.nextId → ⟨number⟩ ∈ registered
  isLeast_nextId : IsLeast {candidate | 0 < candidate ∧ ∀ id ∈ chosen, id.number < candidate}
    table.nextId
  ascending : chosen.Pairwise fun earlier later => earlier.number < later.number

section Runs

variable (table : Table β) (request : Request β) (requests : List (Request β))

theorem registeredIn_cons : table.registeredIn (request :: requests) =
    (table.perform request).1.registered?.toList ++
      (table.perform request).2.registeredIn requests := by
  rw [registeredIn, performAll, List.filterMap_cons]
  cases (table.perform request).1.registered? <;> rfl

theorem chosenIn_cons : table.chosenIn (request :: requests) =
    (request.chosen? (table.perform request).1).toList ++
      (table.perform request).2.chosenIn requests := by
  rw [chosenIn, performAll, List.zip_cons_cons, List.filterMap_cons]
  cases hchosen : request.chosen? (table.perform request).1 <;> simp [hchosen, chosenIn]

end Runs

section Search

variable {table : Table β}

/-- The numbers that are passed over are taken. -/
theorem contains_of_lt_freeFrom {room candidate number : Nat} (hle : candidate ≤ number)
    (hlt : number < table.freeFrom room candidate) : table.contains ⟨number⟩ = true := by
  induction room generalizing candidate with
  | zero => exact absurd hlt (Nat.not_lt.mpr hle)
  | succ room ih =>
      rw [freeFrom] at hlt
      split at hlt
      case isTrue htaken =>
        by_cases heq : number = candidate
        · rwa [heq]
        · exact ih (by omega) hlt
      case isFalse => exact absurd hlt (Nat.not_lt.mpr hle)

theorem increment?_ofNat {number : Nat} (hnumber : number + 1 < UInt64.size) :
    increment? (UInt64.ofNat number) = some (UInt64.ofNat (number + 1)) := by
  rw [increment?, UInt64.toNat_ofNat_of_lt' (by omega), if_pos hnumber, UInt64.ofNat_add]
  rfl

/-- A taken number is passed over. -/
theorem seek?_of_contains {counter next : UInt64}
    (htaken : table.contains ⟨counter.toNat⟩ = true) (hnext : increment? counter = some next) :
    table.seek? counter = table.seek? next := by
  rw [seek?, if_pos htaken]
  split
  case h_1 hnone =>
    rw [hnext] at hnone
    cases hnone
  case h_2 other hother =>
    rw [hnext] at hother
    rw [Option.some.inj hother]

/-- The search stops at the first number that is free. -/
theorem seek?_eq_some {start number : Nat} (hle : start ≤ number) (hnumber : number < UInt64.size)
    (htaken : ∀ other, start ≤ other → other < number → table.contains ⟨other⟩ = true)
    (hfree : table.contains ⟨number⟩ = false) :
    table.seek? (UInt64.ofNat start) = some (UInt64.ofNat number) := by
  obtain ⟨gap, rfl⟩ := Nat.exists_eq_add_of_le hle
  induction gap generalizing start with
  | zero =>
      rw [Nat.add_zero] at hnumber hfree
      rw [seek?, UInt64.toNat_ofNat_of_lt' hnumber, hfree]
      rfl
  | succ gap ih =>
      have hstart : (UInt64.ofNat start).toNat = start := UInt64.toNat_ofNat_of_lt' (by omega)
      have hsum : start + 1 + gap = start + (gap + 1) := by omega
      have hpassed : table.seek? (UInt64.ofNat start) = table.seek? (UInt64.ofNat (start + 1)) := by
        apply seek?_of_contains
        · rw [hstart]
          exact htaken start (Nat.le_refl _) (by omega)
        · exact increment?_ofNat (by omega)
      rw [hpassed, ← hsum]
      apply ih
      · omega
      · omega
      · intro other hother hlt
        exact htaken other (by omega) (by omega)
      · rwa [hsum]

theorem appendInWords?_eq (table : Table β) (descriptor : Descriptor β) (id : SystemId)
    (hsequence : table.nextSequence + 1 < UInt64.size) :
    table.appendInWords? descriptor id = some (table.append descriptor id) := by
  rw [appendInWords?, increment?_ofNat hsequence, Option.map_some,
    UInt64.toNat_ofNat_of_lt' hsequence]
  rfl

/-- A system that asks for no identifier gets the number that is found. -/
theorem perform_register_of_not_assigned (table : Table β) {descriptor : Descriptor β}
    (hassigned : descriptor.id.isAssigned = false) :
    table.perform (.register descriptor) = (.registered ⟨table.freeNumber⟩,
      { table.append descriptor ⟨table.freeNumber⟩ with nextId := table.freeNumber + 1 }) := by
  rw [perform, register, hassigned]
  rfl

theorem registerInWords?_eq (descriptor : Descriptor β)
    (hsequence : table.nextSequence + 1 < UInt64.size)
    (hnumber : descriptor.id.isAssigned = false → table.freeNumber + 1 < UInt64.size) :
    table.registerInWords? descriptor = some (table.perform (.register descriptor)) := by
  rw [registerInWords?]
  cases hassigned : descriptor.id.isAssigned with
  | true =>
    rw [perform, register, hassigned, if_pos rfl, if_pos rfl,
      appendInWords?_eq table _ _ hsequence]
    split <;> rfl
  | false =>
    have hnext := hnumber hassigned
    have hseek : table.seek? (UInt64.ofNat table.nextId) =
        some (UInt64.ofNat table.freeNumber) :=
      seek?_eq_some (le_freeFrom table _ _) (by omega)
        (fun _ => contains_of_lt_freeFrom) (contains_freeNumber table)
    have happend := appendInWords?_eq { table with nextId := table.freeNumber + 1 } descriptor
      ⟨table.freeNumber⟩ hsequence
    rw [perform_register_of_not_assigned table hassigned, if_neg Bool.false_ne_true, hseek,
      Option.bind_some, increment?_ofNat hnext, Option.bind_some, UInt64.toNat_ofNat_of_lt' hnext,
      UInt64.toNat_ofNat_of_lt' (by omega), happend]
    rfl

end Search

theorem counts_empty : (empty : Table β).Counts [] [] where
  nextSequence_eq := rfl
  mem_of_contains _ hid := by cases hid
  passed number hpos hlt := absurd hlt (Nat.not_lt.mpr hpos)
  isLeast_nextId := ⟨⟨Nat.one_pos, List.forall_mem_nil _⟩, fun _ hcandidate => hcandidate.1⟩
  ascending := List.Pairwise.nil

namespace Counts

variable {table : Table β} {registered chosen : List SystemId}
  (hcounts : table.Counts registered chosen)
include hcounts

/-- The counter has passed over nothing but registrations, and over none of them twice. -/
theorem nextId_le : table.nextId ≤ 1 + registered.length := by
  let passed := (List.range (table.nextId - 1)).map fun offset => (⟨offset + 1⟩ : SystemId)
  have hnodup : passed.Nodup := by
    refine List.Nodup.map (fun left right heq => ?_) List.nodup_range
    simpa using congrArg SystemId.number heq
  have hsubset : passed ⊆ registered := by
    intro id hid
    obtain ⟨offset, hoffset, rfl⟩ := List.mem_map.mp hid
    have hlt := List.mem_range.mp hoffset
    exact hcounts.passed (offset + 1) (Nat.succ_pos _) (by omega)
  have hlength := (List.subperm_of_subset hnodup hsubset).length_le
  simp only [passed, List.length_map, List.length_range] at hlength
  omega

/-- Removals are not counted. -/
theorem without (removed : List SystemId) :
    (table.without removed).Counts registered chosen where
  nextSequence_eq := hcounts.nextSequence_eq
  mem_of_contains id hcontains := by
    apply hcounts.mem_of_contains
    rw [contains_eq_true_iff_mem_index] at hcontains ⊢
    exact List.map_subset Prod.fst List.filter_sublist.subset hcontains
  passed := hcounts.passed
  isLeast_nextId := hcounts.isLeast_nextId
  ascending := hcounts.ascending

/-- Who asks for an identifier leaves the counter of numbers alone. -/
theorem append (descriptor : Descriptor β) (id : SystemId) :
    (table.append descriptor id).Counts (registered ++ [id]) chosen where
  nextSequence_eq := by
    rw [Table.append, hcounts.nextSequence_eq, List.length_append, List.length_singleton]
  mem_of_contains other hcontains := by
    rw [contains_eq_true_iff_mem_index, Table.append, List.map_append, List.mem_append,
      ← contains_eq_true_iff_mem_index] at hcontains
    exact List.mem_append.mpr (hcontains.imp_left (hcounts.mem_of_contains other))
  passed number hpos hlt := List.mem_append_left _ (hcounts.passed number hpos hlt)
  isLeast_nextId := hcounts.isLeast_nextId
  ascending := hcounts.ascending

/-- What is free and above the numbers given out is not below the counter, and not below the
number that is found either. -/
theorem isLeast_freeNumber :
    IsLeast {candidate | 0 < candidate ∧ table.contains ⟨candidate⟩ = false ∧
      ∀ earlier ∈ chosen, earlier.number < candidate} table.freeNumber := by
  have hle : table.nextId ≤ table.freeNumber := le_freeFrom table _ _
  obtain ⟨hpos, habove⟩ := hcounts.isLeast_nextId.1
  constructor
  · refine ⟨Nat.lt_of_lt_of_le hpos hle, contains_freeNumber table, ?_⟩
    intro earlier hearlier
    exact Nat.lt_of_lt_of_le (habove earlier hearlier) hle
  · rintro candidate ⟨hcandidate, hfree, hearlier⟩
    have hstart : table.nextId ≤ candidate := hcounts.isLeast_nextId.2 ⟨hcandidate, hearlier⟩
    by_contra hlt
    have htaken := contains_of_lt_freeFrom hstart (Nat.not_le.mp hlt)
    rw [hfree] at htaken
    cases htaken

/-- Who asks for no identifier moves the counter behind the number found.  The numbers in between
are taken, so they were registered. -/
theorem number (descriptor : Descriptor β) :
    Counts { table.append descriptor ⟨table.freeNumber⟩ with nextId := table.freeNumber + 1 }
      (registered ++ [⟨table.freeNumber⟩]) (chosen ++ [⟨table.freeNumber⟩]) where
  nextSequence_eq := (hcounts.append descriptor ⟨table.freeNumber⟩).nextSequence_eq
  mem_of_contains := (hcounts.append descriptor ⟨table.freeNumber⟩).mem_of_contains
  passed number hpos hlt := by
    by_cases hnew : number = table.freeNumber
    · rw [hnew]
      exact List.mem_append_right _ List.mem_cons_self
    apply List.mem_append_left
    by_cases hpassed : number < table.nextId
    · exact hcounts.passed number hpos hpassed
    · apply hcounts.mem_of_contains
      exact contains_of_lt_freeFrom (Nat.not_lt.mp hpassed)
        (Nat.lt_of_le_of_ne (Nat.lt_succ_iff.mp hlt) hnew)
  isLeast_nextId := by
    have hearlier := hcounts.isLeast_freeNumber.1.2.2
    constructor
    · refine ⟨Nat.succ_pos _, ?_⟩
      intro id hid
      rcases List.mem_append.mp hid with hold | hnew
      · exact Nat.lt_succ_of_lt (hearlier id hold)
      · rw [List.mem_singleton.mp hnew]
        exact Nat.lt_succ_self _
    · rintro candidate ⟨-, habove⟩
      exact habove _ (List.mem_append_right _ List.mem_cons_self)
  ascending := by
    refine List.pairwise_append.mpr ⟨hcounts.ascending, List.pairwise_singleton _ _, ?_⟩
    intro earlier hearlier later hlater
    rw [List.mem_singleton.mp hlater]
    exact hcounts.isLeast_freeNumber.1.2.2 earlier hearlier

/-- One request. -/
theorem perform (hwf : table.WellFormed) (request : Request β) :
    (table.perform request).2.Counts
      (registered ++ (table.perform request).1.registered?.toList)
      (chosen ++ (request.chosen? (table.perform request).1).toList) := by
  cases request with
  | register descriptor =>
      rw [Table.perform, Request.chosen?, Table.register]
      by_cases hassigned : descriptor.id.isAssigned = true
      · rw [if_pos hassigned, if_pos hassigned]
        by_cases htaken : table.contains descriptor.id = true
        · simpa [htaken, Answer.registered?] using hcounts
        · simpa [htaken, Answer.registered?] using hcounts.append descriptor descriptor.id
      · rw [if_neg hassigned, if_neg hassigned]
        exact hcounts.number descriptor
  | unregister id =>
      rw [Table.perform]
      cases hunregister : table.unregister id with
      | error => simpa [Request.chosen?, Answer.registered?] using hcounts
      | ok result =>
          rw [hwf.unregister_eq_ok hunregister]
          simpa [Request.chosen?, Answer.registered?] using hcounts.without [id]
  | unregisterModule owner =>
      rw [Table.perform]
      cases hunregister : table.unregisterModule owner with
      | error => simpa [Request.chosen?, Answer.registered?] using hcounts
      | ok result =>
          rw [hwf.unregisterModule_eq_ok hunregister]
          simpa [Request.chosen?, Answer.registered?] using hcounts.without result.1

/-- As long as the registrations can be counted by a machine word, so can everything else. -/
theorem performInWords?_eq (hwf : table.WellFormed) (request : Request β)
    (hfew : (registered ++ (table.perform request).1.registered?.toList).length + 1 <
      UInt64.size) :
    table.performInWords? request = some (table.perform request) := by
  cases request with
  | register descriptor =>
      have hnext := hcounts.perform hwf (.register descriptor)
      rw [List.length_append] at hfew
      apply registerInWords?_eq
      · rw [hcounts.nextSequence_eq]
        omega
      · intro hassigned
        have hnumber := hnext.nextId_le
        rw [List.length_append] at hnumber
        rw [table.perform_register_of_not_assigned hassigned] at hnumber hfew
        dsimp only at hnumber hfew
        omega
  | unregister id => rfl
  | unregisterModule owner => rfl

/-- All requests. -/
theorem performAll (hwf : table.WellFormed) (requests : List (Request β)) :
    (table.performAll requests).2.Counts (registered ++ table.registeredIn requests)
      (chosen ++ table.chosenIn requests) := by
  induction requests generalizing table registered chosen with
  | nil => simpa [registeredIn, chosenIn, Table.performAll] using hcounts
  | cons request requests ih =>
      rw [registeredIn_cons, chosenIn_cons, ← List.append_assoc, ← List.append_assoc]
      exact ih (hcounts.perform hwf request) (hwf.perform request)

theorem performAllInWords?_eq (hwf : table.WellFormed) (requests : List (Request β))
    (hfew : (registered ++ table.registeredIn requests).length + 1 < UInt64.size) :
    table.performAllInWords? requests = some (table.performAll requests) := by
  induction requests generalizing table registered chosen with
  | nil => rfl
  | cons request requests ih =>
      rw [registeredIn_cons, ← List.append_assoc] at hfew
      have hstep : table.performInWords? request = some (table.perform request) := by
        apply hcounts.performInWords?_eq hwf
        rw [List.length_append] at hfew
        omega
      rw [performAllInWords?, hstep, Option.bind_some,
        ih (hcounts.perform hwf request) (hwf.perform request) hfew]
      rfl

end Counts

theorem counts_performAll (requests : List (Request β)) :
    ((empty : Table β).performAll requests).2.Counts (empty.registeredIn requests)
      (empty.chosenIn requests) := by
  simpa using counts_empty.performAll wellFormed_empty requests

/-- A table gives out the least numbers that are free and new, each of them once, and does so with
machine words if there are fewer registrations than words. -/
theorem numbersSystems_of_length_lt {requests : List (Request β)}
    (hfew : ((empty : Table β).registeredIn requests).length < UInt64.size - 1) :
    NumbersSystems requests where
  performAllInWords?_eq := by
    apply counts_empty.performAllInWords?_eq wellFormed_empty
    rw [List.nil_append]
    omega
  isLeast front descriptor back _ hassigned := by
    have hcounts := counts_performAll front
    refine ⟨(empty.performAll front).2.freeNumber, ?_, hcounts.isLeast_freeNumber⟩
    rw [perform_register_of_not_assigned _ hassigned]
  ascending := (counts_performAll requests).ascending
  nextId_le front _ _ := (counts_performAll front).nextId_le

/-- Systems that ask for the identifiers 1 and 4 or for none, and one that is removed again. -/
def arrivals : List (Request Unit) :=
  [.register ((Descriptor.ofBody "draw" ()).withId ⟨1⟩),
    .register (Descriptor.ofBody "input" ()),
    .unregister ⟨2⟩,
    .register ((Descriptor.ofBody "audio" ()).withId ⟨4⟩),
    .register (Descriptor.ofBody "physics" ()),
    .register (Descriptor.ofBody "save" ())]

/-- The identifier that is free again is not given out again, and the one that is taken is passed
over. -/
theorem numbersSystems_of_length_lt_arrivals :
    (empty.registeredIn arrivals).length < UInt64.size - 1 ∧
      empty.chosenIn arrivals = [⟨2⟩, ⟨3⟩, ⟨5⟩] ∧ NumbersSystems arrivals := by
  have hfew : (empty.registeredIn arrivals).length < UInt64.size - 1 := by decide
  exact ⟨hfew, by decide, numbersSystems_of_length_lt hfew⟩

end TickWaves.Table
