import Mathlib.Tactic.Tauto
import TickWaves.Access.Basic

/-!
# Access declarations made by calls

A declaration is known from the types it writes and the types it accesses
(`Access.ext_accesses`).  Each call adds one type to one of the two, so neither the order of the
calls nor repetitions among them leave a trace (`Access.mem_writes_performAll`,
`Access.accesses_performAll`).
-/

namespace TickWaves

universe u v

/-- If each step adds its share to what holds, then what holds in the end is what held in the
beginning or what some step has added. -/
theorem foldl_iff_of_step {σ : Type u} {ε : Type v} {step : σ → ε → σ} (holds : σ → Prop)
    (adds : ε → Prop) (hstep : ∀ state event, holds (step state event) ↔ holds state ∨ adds event)
    (events : List ε) (state : σ) :
    holds (events.foldl step state) ↔ holds state ∨ ∃ event ∈ events, adds event := by
  induction events generalizing state with
  | nil => simp
  | cons event events ih =>
      calc
        holds ((event :: events).foldl step state) ↔
            holds (step state event) ∨ ∃ later ∈ events, adds later := ih (step state event)
        _ ↔ holds state ∨ ∃ later ∈ event :: events, adds later := by
          simp [hstep, or_assoc]

namespace Access

/-- One of two declarations writes what the other one accesses. -/
theorem conflictsWith_iff_accesses {access other : Access} :
    access.conflictsWith other = true ↔
      ∃ id, (id ∈ access.writes ∧ other.accesses id = true) ∨
        (access.accesses id = true ∧ id ∈ other.writes) := by
  rw [conflictsWith_eq_true_iff]
  apply exists_congr
  intro id
  simp only [accesses_eq_true_iff]
  tauto

/-- What is read is what is accessed and not written. -/
theorem mem_reads_iff {access : Access} {id : ComponentId} :
    id ∈ access.reads ↔ access.accesses id = true ∧ id ∉ access.writes := by
  have hdisjoint := access.disjoint id
  rw [accesses_eq_true_iff]
  tauto

/-- Two declarations are the same if they write the same types and access the same types. -/
theorem ext_accesses {access other : Access}
    (hwrites : ∀ id, id ∈ access.writes ↔ id ∈ other.writes)
    (haccesses : ∀ id, access.accesses id = true ↔ other.accesses id = true) :
    access = other := by
  apply Access.ext_sets
  · apply KeySet.ext_mem
    intro id
    rw [mem_reads_iff, mem_reads_iff, haccesses, hwrites]
  · exact KeySet.ext_mem hwrites

/-- One call that adds to a declaration. -/
inductive Call
  | read (id : ComponentId)
  | write (id : ComponentId)
  deriving DecidableEq

def perform (access : Access) : Call → Access
  | .read id => access.addRead id
  | .write id => access.addWrite id

def performAll (access : Access) (calls : List Call) : Access :=
  calls.foldl perform access

section Perform

variable (access : Access) (call : Call) (calls : List Call)

theorem mem_writes_perform {id : ComponentId} :
    id ∈ (access.perform call).writes ↔ id ∈ access.writes ∨ call = .write id := by
  cases call with
  | read other => simp [perform]
  | write other => simp [perform, or_comm, eq_comm]

theorem accesses_perform {id : ComponentId} :
    (access.perform call).accesses id = true ↔
      access.accesses id = true ∨ (call = .read id ∨ call = .write id) := by
  simp only [accesses_eq_true_iff]
  cases call with
  | read other =>
      -- A read that is not listed was declared as a write before.
      by_cases hwritten : other ∈ access.writes <;> by_cases hid : other = id <;>
        simp_all [perform, eq_comm]
  | write other => by_cases hid : other = id <;> simp_all [perform, eq_comm]

theorem mem_writes_performAll {id : ComponentId} :
    id ∈ (access.performAll calls).writes ↔ id ∈ access.writes ∨ Call.write id ∈ calls := by
  refine (foldl_iff_of_step (fun access => id ∈ access.writes) (· = .write id)
    (fun _ _ => mem_writes_perform _ _) calls access).trans ?_
  simp

theorem accesses_performAll {id : ComponentId} :
    (access.performAll calls).accesses id = true ↔
      access.accesses id = true ∨ Call.read id ∈ calls ∨ Call.write id ∈ calls := by
  refine (foldl_iff_of_step (fun access => access.accesses id = true)
    (fun call => call = .read id ∨ call = .write id)
    (fun _ _ => accesses_perform _ _) calls access).trans ?_
  simp only [and_or_left, exists_or, exists_eq_right]

end Perform

section Made

variable {calls calls' : List Call} {id : ComponentId}

theorem mem_writes_made :
    id ∈ (empty.performAll calls).writes ↔ Call.write id ∈ calls :=
  (mem_writes_performAll empty calls).trans (or_iff_right (KeySet.not_mem_empty id))

theorem accesses_made :
    (empty.performAll calls).accesses id = true ↔ Call.read id ∈ calls ∨ Call.write id ∈ calls :=
  (accesses_performAll empty calls).trans (or_iff_right Bool.false_ne_true)

theorem mem_reads_made :
    id ∈ (empty.performAll calls).reads ↔ Call.read id ∈ calls ∧ Call.write id ∉ calls := by
  rw [mem_reads_iff, accesses_made, mem_writes_made]
  tauto

/-- The same calls in another order make the same declaration. -/
theorem performAll_eq_of_perm (hperm : calls.Perm calls') :
    empty.performAll calls = empty.performAll calls' := by
  apply ext_accesses
  · intro id
    rw [mem_writes_made, mem_writes_made, hperm.mem_iff]
  · intro id
    rw [accesses_made, accesses_made, hperm.mem_iff, hperm.mem_iff]

/-- Every declaration is made by calls. -/
theorem performAll_reads_writes (access : Access) :
    empty.performAll (access.reads.toList.map .read ++ access.writes.toList.map .write) =
      access := by
  apply ext_accesses
  · intro id
    rw [mem_writes_made]
    simp [← KeySet.mem_def]
  · intro id
    rw [accesses_made]
    simp [← KeySet.mem_def]

end Made

end Access

end TickWaves
