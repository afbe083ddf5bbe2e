import TickWaves.Proofs.Access.Calls
import TickWaves.System.Descriptor

/-!
# What a descriptor declares

The sets of a descriptor are filled by calls, each of which adds one type or one tag.  The
order of the calls and repetitions among them leave no trace: a type is written if some call
declares a write of it, and it is accessed if some call declares a read or a write.  So a
descriptor is known from the calls that were made, and every descriptor can be made by calls
(`Descriptor.isDeclaredBy_declarations`).
-/

namespace TickWaves

universe u

/-- One call that adds to what a system declares. -/
inductive Declaration
  | reads (id : ComponentId)
  | writes (id : ComponentId)
  /-- No wave is shared with systems of the tag. -/
  | avoids (tag : Tag)
  deriving DecidableEq

namespace Descriptor

variable {β : Type u}

def blank (descriptor : Descriptor β) : Descriptor β :=
  { descriptor with
    access := Access.empty
    excluded := KeySet.empty }

def declare (descriptor : Descriptor β) : Declaration → Descriptor β
  | .reads id => descriptor.reading id
  | .writes id => descriptor.writing id
  | .avoids tag => descriptor.notDuring tag

def declareAll (descriptor : Descriptor β) (declarations : List Declaration) : Descriptor β :=
  declarations.foldl declare descriptor

/-- The descriptor is what the calls make, apart from what no call touches. -/
def IsDeclaredBy (descriptor : Descriptor β) (declarations : List Declaration) : Prop :=
  descriptor.blank.declareAll declarations = descriptor

def declarations (descriptor : Descriptor β) : List Declaration :=
  descriptor.access.reads.toList.map .reads ++ descriptor.access.writes.toList.map .writes
    ++ descriptor.excluded.toList.map .avoids

section Calls

variable (descriptor : Descriptor β) (declaration : Declaration)
variable (declarations : List Declaration)

/-- A call touches nothing but the declared sets. -/
@[simp]
theorem blank_declare : (descriptor.declare declaration).blank = descriptor.blank := by
  cases declaration <;> rfl

@[simp]
theorem blank_declareAll : (descriptor.declareAll declarations).blank = descriptor.blank := by
  induction declarations generalizing descriptor with
  | nil => rfl
  | cons declaration declarations ih => exact (ih _).trans (blank_declare descriptor declaration)

theorem mem_writes_declare {id : ComponentId} :
    id ∈ (descriptor.declare declaration).access.writes ↔
      id ∈ descriptor.access.writes ∨ declaration = .writes id := by
  cases declaration with
  | reads other => simp [declare, reading]
  | writes other => simp [declare, writing, or_comm, eq_comm]
  | avoids tag => simp [declare, notDuring]

theorem accesses_declare {id : ComponentId} :
    (descriptor.declare declaration).access.accesses id = true ↔
      descriptor.access.accesses id = true ∨
        (declaration = .reads id ∨ declaration = .writes id) := by
  cases declaration with
  | reads other =>
      exact (Access.accesses_perform descriptor.access (.read other)).trans (by simp)
  | writes other =>
      exact (Access.accesses_perform descriptor.access (.write other)).trans (by simp)
  | avoids tag => simp [declare, notDuring]

theorem mem_excluded_declare {tag : Tag} :
    tag ∈ (descriptor.declare declaration).excluded ↔
      tag ∈ descriptor.excluded ∨ declaration = .avoids tag := by
  cases declaration with
  | reads id => simp [declare, reading]
  | writes id => simp [declare, writing]
  | avoids other => simp [declare, notDuring, or_comm, eq_comm]

theorem mem_writes_declareAll {id : ComponentId} :
    id ∈ (descriptor.declareAll declarations).access.writes ↔
      id ∈ descriptor.access.writes ∨ Declaration.writes id ∈ declarations := by
  refine (foldl_iff_of_step (fun descriptor => id ∈ descriptor.access.writes) (· = .writes id)
    (fun _ _ => mem_writes_declare _ _) declarations descriptor).trans ?_
  simp

theorem accesses_declareAll {id : ComponentId} :
    (descriptor.declareAll declarations).access.accesses id = true ↔
      descriptor.access.accesses id = true ∨
        Declaration.reads id ∈ declarations ∨ Declaration.writes id ∈ declarations := by
  refine (foldl_iff_of_step (fun descriptor => descriptor.access.accesses id = true)
    (fun declaration => declaration = .reads id ∨ declaration = .writes id)
    (fun _ _ => accesses_declare _ _) declarations descriptor).trans ?_
  simp only [and_or_left, exists_or, exists_eq_right]

theorem mem_excluded_declareAll {tag : Tag} :
    tag ∈ (descriptor.declareAll declarations).excluded ↔
      tag ∈ descriptor.excluded ∨ Declaration.avoids tag ∈ declarations := by
  refine (foldl_iff_of_step (fun descriptor => tag ∈ descriptor.excluded) (· = .avoids tag)
    (fun _ _ => mem_excluded_declare _ _) declarations descriptor).trans ?_
  simp

end Calls

section Blank

variable (descriptor : Descriptor β)

@[simp]
theorem not_mem_writes_blank (id : ComponentId) : ¬ id ∈ descriptor.blank.access.writes :=
  KeySet.not_mem_empty id

@[simp]
theorem accesses_blank (id : ComponentId) : descriptor.blank.access.accesses id = false := rfl

@[simp]
theorem not_mem_excluded_blank (tag : Tag) : ¬ tag ∈ descriptor.blank.excluded :=
  KeySet.not_mem_empty tag

end Blank

namespace IsDeclaredBy

variable {descriptor : Descriptor β} {declarations : List Declaration}
variable (hdeclared : descriptor.IsDeclaredBy declarations)
include hdeclared

theorem mem_writes_iff {id : ComponentId} :
    id ∈ descriptor.access.writes ↔ Declaration.writes id ∈ declarations := by
  rw [← hdeclared, mem_writes_declareAll]
  simp

theorem accesses_iff {id : ComponentId} :
    descriptor.access.accesses id = true ↔
      Declaration.reads id ∈ declarations ∨ Declaration.writes id ∈ declarations := by
  rw [← hdeclared, accesses_declareAll]
  simp

theorem mem_excluded_iff {tag : Tag} :
    tag ∈ descriptor.excluded ↔ Declaration.avoids tag ∈ declarations := by
  rw [← hdeclared, mem_excluded_declareAll]
  simp

end IsDeclaredBy

/-- A descriptor is what it is without its declared sets, and these sets. -/
theorem ext_blank {descriptor other : Descriptor β} (hblank : descriptor.blank = other.blank)
    (haccess : descriptor.access = other.access)
    (hexcluded : descriptor.excluded = other.excluded) : descriptor = other := by
  cases descriptor
  cases other
  simp_all [blank]

/-- Calls on a descriptor without declared sets make what they declare. -/
theorem isDeclaredBy_declareAll {descriptor : Descriptor β} {declarations : List Declaration}
    (hblank : descriptor.blank = descriptor) :
    (descriptor.declareAll declarations).IsDeclaredBy declarations := by
  rw [IsDeclaredBy, blank_declareAll, hblank]

/-- Every descriptor is made by calls. -/
theorem isDeclaredBy_declarations (descriptor : Descriptor β) :
    descriptor.IsDeclaredBy descriptor.declarations := by
  apply ext_blank
  case hblank => exact blank_declareAll descriptor.blank descriptor.declarations
  case haccess =>
    apply Access.ext_accesses
    · intro id
      rw [mem_writes_declareAll]
      simp [declarations, ← KeySet.mem_def]
    · intro id
      rw [accesses_declareAll]
      simp [declarations, ← KeySet.mem_def]
  case hexcluded =>
    apply KeySet.ext_mem
    intro tag
    rw [mem_excluded_declareAll]
    simp [declarations, ← KeySet.mem_def]

end Descriptor

end TickWaves
