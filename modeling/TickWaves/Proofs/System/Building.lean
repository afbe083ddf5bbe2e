import Mathlib.Data.List.Induction
import TickWaves.Proofs.Access.Sheet
import TickWaves.System.Descriptor

/-!
# Descriptors built by calls

A descriptor is built by calls, one after the other.  A call that replaces the whole access
declaration undoes what the calls before it declared about types (`Call.Stands`); a tag is
overridden by a later one; what makes a system exclusive or structural, or keeps it out of the
waves of a tag, is never taken back.

The conflict test is the rule about declared types and tags (`conflicts_built_iff`).  A stored
descriptor has plain lists instead of sets (`Descriptor.Plain`), which every call edits at places
found by binary search and which the test walks side by side; it comes to the same
(`conflicts_plain`).
-/

namespace TickWaves

universe u

open KeySet

namespace Descriptor

variable {β : Type u}

inductive Call
  | withId (id : SystemId)
  | reading (id : ComponentId)
  | writing (id : ComponentId)
  | usingResource (name : String)
  | withAccess (access : Access)
  | withTag (tag : Tag)
  | withPriority (priority : Int)
  | ownedBy (owner : ModuleId)
  | exclusive
  | mainThread
  | structural
  | notDuring (tag : Tag)

def perform (descriptor : Descriptor β) : Call → Descriptor β
  | .withId id => descriptor.withId id
  | .reading id => descriptor.reading id
  | .writing id => descriptor.writing id
  | .usingResource name => descriptor.usingResource name
  | .withAccess access => descriptor.withAccess access
  | .withTag tag => descriptor.withTag tag
  | .withPriority priority => descriptor.withPriority priority
  | .ownedBy owner => descriptor.ownedBy owner
  | .exclusive => descriptor.exclusive
  | .mainThread => descriptor.mainThread
  | .structural => descriptor.structural
  | .notDuring tag => descriptor.notDuring tag

def built (name : String) (body : β) (calls : List Call) : Descriptor β :=
  calls.foldl perform (ofBody name body)

namespace Call

/-- The call discards what was declared about types before. -/
def replaces : Call → Bool
  | .withAccess _ => true
  | _ => false

def Reads (id : ComponentId) : Call → Prop
  | .reading other => other = id
  | .withAccess access => id ∈ access.reads
  | _ => False

def Writes (id : ComponentId) : Call → Prop
  | .writing other => other = id
  | .usingResource name => ComponentId.resource name = id
  | .withAccess access => id ∈ access.writes
  | _ => False

/-- Some call declares it, and no later call discards it. -/
def Stands (declares : Call → Prop) (calls : List Call) : Prop :=
  ∃ earlier call later, calls = earlier ++ call :: later ∧ declares call ∧
    ∀ other ∈ later, other.replaces = false

def tag? : Call → Option Tag
  | .withTag tag => some tag
  | _ => none

/-- The tag that the last call about it has put the system in. -/
def finalTag? (calls : List Call) : Option Tag :=
  (calls.filterMap tag?).getLast?

def Solitary (calls : List Call) : Prop :=
  Call.exclusive ∈ calls ∨ Call.structural ∈ calls

/-- Some call keeps the system out of the waves of the tag the other calls end with. -/
def Shun (calls calls' : List Call) : Prop :=
  ∃ tag, finalTag? calls' = some tag ∧ Call.notDuring tag ∈ calls

/-- The rule about declared types and tags. -/
def Conflict (calls calls' : List Call) : Prop :=
  (Solitary calls ∨ Solitary calls') ∨
    (Shun calls calls' ∨ Shun calls' calls) ∨
    ∃ id, (Stands (Writes id) calls ∧ Stands (Writes id) calls') ∨
      (Stands (Writes id) calls ∧ Stands (Reads id) calls') ∨
      (Stands (Reads id) calls ∧ Stands (Writes id) calls')

end Call

section Stands

variable {declares declares' : Call → Prop}

theorem Call.not_stands_nil : ¬ Call.Stands declares [] := by
  rintro ⟨earlier, call, later, hnil, -⟩
  exact List.append_ne_nil_of_right_ne_nil earlier (List.cons_ne_nil call later) hnil.symm

/-- A call stands if it is the last one, or stood before and is not discarded by the last one. -/
theorem Call.stands_concat {calls : List Call} {last : Call} :
    Call.Stands declares (calls ++ [last]) ↔
      declares last ∨ (last.replaces = false ∧ Call.Stands declares calls) := by
  constructor
  · rintro ⟨earlier, call, later, hcalls, hdeclares, hkept⟩
    rcases List.eq_nil_or_concat' later with rfl | ⟨later, last', rfl⟩
    · obtain ⟨-, hlast⟩ := List.append_inj' hcalls rfl
      rw [List.singleton_inj.mp hlast]
      exact Or.inl hdeclares
    · rw [← List.cons_append, ← List.append_assoc] at hcalls
      obtain ⟨rfl, hlast⟩ := List.append_inj' hcalls rfl
      rw [List.singleton_inj.mp hlast]
      exact Or.inr ⟨hkept last' (List.mem_append_right _ List.mem_cons_self), earlier, call, later,
        rfl, hdeclares, fun other hother => hkept other (List.mem_append_left _ hother)⟩
  · rintro (hdeclares | ⟨hlast, earlier, call, later, rfl, hdeclares, hkept⟩)
    · exact ⟨calls, last, [], rfl, hdeclares, List.forall_mem_nil _⟩
    · refine ⟨earlier, call, later ++ [last], by simp, hdeclares, ?_⟩
      intro other hother
      rcases List.mem_append.mp hother with hother | hother
      · exact hkept other hother
      · rwa [List.mem_singleton.mp hother]

theorem Call.stands_or {calls : List Call} :
    Call.Stands (fun call => declares call ∨ declares' call) calls ↔
      Call.Stands declares calls ∨ Call.Stands declares' calls := by
  induction calls using List.reverseRecOn with
  | nil => simp [Call.not_stands_nil]
  | append_singleton calls last ih =>
      simp only [Call.stands_concat, ih]
      tauto

/-- If each call declares its share of what holds, and a replacing call leaves nothing else of it,
then what holds in the end is what stands. -/
theorem built_iff_stands (holds : Descriptor β → Prop) (declares : Call → Prop)
    (hstart : ∀ name body, ¬ holds (ofBody name body))
    (hperform : ∀ descriptor call, holds (perform descriptor call) ↔
      declares call ∨ (call.replaces = false ∧ holds descriptor))
    (name : String) (body : β) (calls : List Call) :
    holds (built name body calls) ↔ Call.Stands declares calls := by
  induction calls using List.reverseRecOn with
  | nil => exact iff_of_false (hstart name body) Call.not_stands_nil
  | append_singleton calls last ih =>
      rw [built, List.foldl_append, Call.stands_concat]
      exact (hperform _ last).trans (or_congr_right (and_congr_right fun _ => ih))

end Stands

section Perform

variable (descriptor : Descriptor β) (call : Call)

theorem mem_writes_perform {id : ComponentId} :
    id ∈ (descriptor.perform call).access.writes ↔
      call.Writes id ∨ (call.replaces = false ∧ id ∈ descriptor.access.writes) := by
  cases call with
  | reading other =>
      rw [perform, reading, Access.writes_addRead]
      exact ((or_iff_right not_false).trans (and_iff_right rfl)).symm
  | writing other =>
      exact Access.mem_writes_addWrite.trans (or_congr eq_comm (and_iff_right rfl).symm)
  | usingResource name =>
      exact Access.mem_writes_addWrite.trans (or_congr eq_comm (and_iff_right rfl).symm)
  | withAccess access => exact (or_iff_left (by simp [Call.replaces])).symm
  | _ => exact ((or_iff_right not_false).trans (and_iff_right rfl)).symm

theorem accesses_perform {id : ComponentId} :
    (descriptor.perform call).access.accesses id = true ↔
      (call.Reads id ∨ call.Writes id) ∨
        (call.replaces = false ∧ descriptor.access.accesses id = true) := by
  cases call with
  | reading other =>
      refine (Access.accesses_perform descriptor.access (.read other)).trans ?_
      simp [Call.Reads, Call.Writes, Call.replaces, or_comm]
  | writing other =>
      refine (Access.accesses_perform descriptor.access (.write other)).trans ?_
      simp [Call.Reads, Call.Writes, Call.replaces, or_comm]
  | usingResource name =>
      refine (Access.accesses_perform descriptor.access
        (.write (ComponentId.resource name))).trans ?_
      simp [Call.Reads, Call.Writes, Call.replaces, or_comm]
  | withAccess access =>
      exact Access.accesses_eq_true_iff.trans (or_iff_left (by simp [Call.replaces])).symm
  | _ =>
      have hnothing : ¬ (False ∨ False) := not_or_intro not_false not_false
      exact ((or_iff_right hnothing).trans (and_iff_right rfl)).symm

theorem isExclusive_perform :
    (descriptor.perform call).isExclusive = true ↔
      descriptor.isExclusive = true ∨ call = .exclusive := by
  cases call with
  | exclusive => exact iff_of_true rfl (Or.inr rfl)
  | _ => exact (or_iff_left nofun).symm

theorem entityAccess_perform :
    (descriptor.perform call).entityAccess = .write ↔
      descriptor.entityAccess = .write ∨ call = .structural := by
  cases call with
  | structural => exact iff_of_true rfl (Or.inr rfl)
  | _ => exact (or_iff_left nofun).symm

theorem mem_excluded_perform {tag : Tag} :
    tag ∈ (descriptor.perform call).excluded ↔
      tag ∈ descriptor.excluded ∨ call = .notDuring tag := by
  cases call with
  | notDuring other =>
      refine KeySet.mem_insert.trans ?_
      rw [or_comm, eq_comm, Call.notDuring.injEq]
  | _ => exact (or_iff_left nofun).symm

theorem tag?_perform :
    (descriptor.perform call).tag? = call.tag?.or descriptor.tag? := by
  cases call <;> rfl

end Perform

section Built

variable (name : String) (body : β) (calls : List Call)

theorem mem_writes_built {id : ComponentId} :
    id ∈ (built name body calls).access.writes ↔ Call.Stands (Call.Writes id) calls :=
  built_iff_stands (fun descriptor => id ∈ descriptor.access.writes) (Call.Writes id)
    (fun _ _ => KeySet.not_mem_empty id) (fun _ _ => mem_writes_perform _ _) name body calls

theorem accesses_built {id : ComponentId} :
    (built name body calls).access.accesses id = true ↔
      Call.Stands (Call.Reads id) calls ∨ Call.Stands (Call.Writes id) calls :=
  (built_iff_stands (fun descriptor => descriptor.access.accesses id = true)
    (fun call => call.Reads id ∨ call.Writes id) (fun _ _ => Bool.false_ne_true)
    (fun _ _ => accesses_perform _ _) name body calls).trans Call.stands_or

theorem tag?_built : (built name body calls).tag? = Call.finalTag? calls := by
  induction calls using List.reverseRecOn with
  | nil => rfl
  | append_singleton calls last ih =>
      rw [built, List.foldl_append, List.foldl_cons, List.foldl_nil, tag?_perform, ← built, ih,
        Call.finalTag?, Call.finalTag?, List.filterMap_append, List.getLast?_append]
      cases htag : last.tag? with
      | none => simp [htag]
      | some tag => simp [htag]

theorem mem_excluded_built {tag : Tag} :
    tag ∈ (built name body calls).excluded ↔ Call.notDuring tag ∈ calls := by
  refine (foldl_iff_of_step (fun descriptor : Descriptor β => tag ∈ descriptor.excluded)
    (· = .notDuring tag) (fun _ _ => mem_excluded_perform _ _) calls (ofBody name body)).trans ?_
  simp [ofBody]

theorem isSolitary_built :
    (built name body calls).isSolitary = true ↔ Call.Solitary calls := by
  have hexclusive : (built name body calls).isExclusive = true ↔ Call.exclusive ∈ calls := by
    refine (foldl_iff_of_step (fun descriptor : Descriptor β => descriptor.isExclusive = true)
      (· = .exclusive) (fun _ _ => isExclusive_perform _ _) calls (ofBody name body)).trans ?_
    simp [ofBody]
  have hstructural : (built name body calls).entityAccess = .write ↔ Call.structural ∈ calls := by
    refine (foldl_iff_of_step (fun descriptor : Descriptor β => descriptor.entityAccess = .write)
      (· = .structural) (fun _ _ => entityAccess_perform _ _) calls (ofBody name body)).trans ?_
    simp [ofBody]
  rw [isSolitary, Bool.or_eq_true, beq_iff_eq, hexclusive, hstructural, Call.Solitary]

theorem shuns_built (name' : String) (body' : β) (calls' : List Call) :
    (built name body calls).shuns (built name' body' calls') = true ↔ Call.Shun calls calls' := by
  rw [shuns, tag?_built, Option.any_eq_true]
  simp only [decide_eq_true_eq, mem_excluded_built, Call.Shun]

/-- The conflict test is the rule about declared types and tags. -/
theorem conflicts_built_iff (name' : String) (body' : β) (calls' : List Call) :
    (built name body calls).conflicts (built name' body' calls') = true ↔
      Call.Conflict calls calls' := by
  have haccess : (built name body calls).access.conflictsWith
      (built name' body' calls').access = true ↔
      ∃ id, (Call.Stands (Call.Writes id) calls ∧ Call.Stands (Call.Writes id) calls') ∨
        (Call.Stands (Call.Writes id) calls ∧ Call.Stands (Call.Reads id) calls') ∨
        (Call.Stands (Call.Reads id) calls ∧ Call.Stands (Call.Writes id) calls') := by
    rw [Access.conflictsWith_iff_accesses]
    apply exists_congr
    intro id
    simp only [mem_writes_built, accesses_built]
    tauto
  rw [conflicts, excludes, Bool.or_eq_true, Bool.or_eq_true, Bool.or_eq_true, Bool.or_eq_true,
    isSolitary_built, isSolitary_built, shuns_built, shuns_built, haccess, Call.Conflict, or_assoc]

/-- A write is forgotten when the whole declaration is replaced. -/
example :
    (built "first" () [.writing ⟨1⟩, .withAccess Access.empty]).conflicts
      (built "second" () [.writing ⟨1⟩]) = false := by
  decide

end Built

/-- What the conflict test reads of a descriptor, as it is stored. -/
structure Plain where
  sheet : Access.Sheet
  tag? : Option Tag
  isExclusive : Bool
  entityAccess : EntityAccess
  excluded : List Tag
  deriving DecidableEq

namespace Plain

def blank : Plain := ⟨Access.Sheet.empty, none, false, .read, []⟩

def perform (plain : Plain) : Call → Plain
  | .reading id => { plain with sheet := plain.sheet.addRead id }
  | .writing id => { plain with sheet := plain.sheet.addWrite id }
  | .usingResource name => { plain with sheet := plain.sheet.addWrite (ComponentId.resource name) }
  | .withAccess access => { plain with sheet := access.sheet }
  | .withTag tag => { plain with tag? := some tag }
  | .exclusive => { plain with isExclusive := true }
  | .structural => { plain with entityAccess := .write }
  | .notDuring tag => { plain with excluded := (search plain.excluded tag).put tag plain.excluded }
  | .withId _ | .withPriority _ | .ownedBy _ | .mainThread => plain

def built (calls : List Call) : Plain := calls.foldl perform blank

def shuns (plain other : Plain) : Bool :=
  other.tag?.any fun tag => (search plain.excluded tag).isPresent

def conflicts (plain other : Plain) : Bool :=
  plain.isExclusive || other.isExclusive
    || plain.entityAccess == .write || other.entityAccess == .write
    || (plain.shuns other || other.shuns plain)
    || plain.sheet.conflictsWith other.sheet

end Plain

section Plain

def plain (descriptor : Descriptor β) : Plain where
  sheet := descriptor.access.sheet
  tag? := descriptor.tag?
  isExclusive := descriptor.isExclusive
  entityAccess := descriptor.entityAccess
  excluded := descriptor.excluded.toList

variable (descriptor other : Descriptor β)

theorem plain_perform (call : Call) :
    (descriptor.perform call).plain = descriptor.plain.perform call := by
  cases call with
  | reading id => simp only [plain, perform, reading, Access.sheet_addRead, Plain.perform]
  | writing id => simp only [plain, perform, writing, Access.sheet_addWrite, Plain.perform]
  | usingResource name =>
      simp only [plain, perform, usingResource, writing, Access.sheet_addWrite, Plain.perform]
  | notDuring tag => simp only [plain, perform, notDuring, toList_insert, Plain.perform]
  | _ => rfl

theorem plain_built (name : String) (body : β) (calls : List Call) :
    (built name body calls).plain = Plain.built calls := by
  induction calls using List.reverseRecOn with
  | nil => rfl
  | append_singleton calls last ih =>
      rw [built, Plain.built, List.foldl_append, List.foldl_append]
      exact (plain_perform _ last).trans (congrArg (Plain.perform · last) ih)

theorem shuns_plain : descriptor.plain.shuns other.plain = descriptor.shuns other := by
  have htag : ∀ tag, (search descriptor.excluded.toList tag).isPresent =
      decide (tag ∈ descriptor.excluded) := by
    intro tag
    rw [Bool.eq_iff_iff, decide_eq_true_eq, mem_iff_isPresent_search]
  exact congrArg other.tag?.any (funext htag)

/-- The test on what is stored is the conflict test. -/
theorem conflicts_plain : descriptor.plain.conflicts other.plain = descriptor.conflicts other := by
  rw [Plain.conflicts, conflicts, excludes, shuns_plain, shuns_plain, isSolitary, isSolitary]
  simp only [plain, Access.conflictsWith_sheet]
  ac_rfl

end Plain

end Descriptor

end TickWaves
