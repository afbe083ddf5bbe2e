import TickWaves.Ident
import TickWaves.Order.KeySet

/-!
# Access declarations

A system declares which component types it reads and which it writes.  A type that is
both read and written counts as written, so the two sets never overlap, and both are
kept in ascending order.  Two declarations conflict when one of them writes what the
other one touches (`Access.conflictsWith`).
-/

namespace TickWaves

/-- The component types a system reads and writes. -/
structure Access where
  /-- Types that are read and not written. -/
  reads : KeySet ComponentId
  /-- Types that are written, and perhaps read as well. -/
  writes : KeySet ComponentId
  /-- A written type is not listed as read. -/
  disjoint : ∀ id, id ∈ reads → ¬ id ∈ writes
  deriving DecidableEq

namespace Access

def empty : Access where
  reads := KeySet.empty
  writes := KeySet.empty
  disjoint _ hread := absurd hread (KeySet.not_mem_empty _)

instance : Inhabited Access := ⟨empty⟩

/-- Declares a read, unless the type is written anyway. -/
def addRead (access : Access) (id : ComponentId) : Access :=
  if hwritten : id ∈ access.writes then access
  else
    { reads := access.reads.insert id
      writes := access.writes
      disjoint := fun other hread => by
        rcases KeySet.mem_insert.mp hread with rfl | hread
        · exact hwritten
        · exact access.disjoint other hread }

/-- Declares a write; a read of the same type is absorbed by it. -/
def addWrite (access : Access) (id : ComponentId) : Access where
  reads := access.reads.erase id
  writes := access.writes.insert id
  disjoint other hread hwrite := by
    obtain ⟨hread, hne⟩ := KeySet.mem_erase.mp hread
    rcases KeySet.mem_insert.mp hwrite with heq | hwrite
    · exact hne heq
    · exact access.disjoint other hread hwrite

/-- The declaration made from two lists, in any order and with repetitions. -/
def ofLists (reads writes : List ComponentId) : Access :=
  reads.foldl addRead (writes.foldl addWrite empty)

def accesses (access : Access) (id : ComponentId) : Bool :=
  decide (id ∈ access.reads) || decide (id ∈ access.writes)

def isEmpty (access : Access) : Bool :=
  access.reads.isEmpty && access.writes.isEmpty

/-- Whether one declaration writes a type that the other one reads or writes.  Two
reads of one type never conflict. -/
def conflictsWith (access other : Access) : Bool :=
  access.writes.meets other.writes
    || access.writes.meets other.reads
    || access.reads.meets other.writes

theorem ext_sets {access other : Access} (hreads : access.reads = other.reads)
    (hwrites : access.writes = other.writes) : access = other := by
  cases access
  cases other
  cases hreads
  cases hwrites
  rfl

@[simp]
theorem writes_addRead (access : Access) (id : ComponentId) :
    (access.addRead id).writes = access.writes := by
  unfold addRead
  split <;> rfl

@[simp]
theorem mem_writes_addWrite {access : Access} {id other : ComponentId} :
    other ∈ (access.addWrite id).writes ↔ other = id ∨ other ∈ access.writes :=
  KeySet.mem_insert

/-- A read is listed unless the type is written. -/
@[simp]
theorem mem_reads_addRead {access : Access} {id other : ComponentId} :
    other ∈ (access.addRead id).reads
      ↔ other ∈ access.reads ∨ (other = id ∧ ¬ id ∈ access.writes) := by
  by_cases hwritten : id ∈ access.writes
  · simp [addRead, hwritten]
  · simp [addRead, hwritten, or_comm]

/-- A write takes its type off the reads. -/
@[simp]
theorem mem_reads_addWrite {access : Access} {id other : ComponentId} :
    other ∈ (access.addWrite id).reads ↔ other ∈ access.reads ∧ other ≠ id :=
  KeySet.mem_erase

@[simp]
theorem accesses_eq_true_iff {access : Access} {id : ComponentId} :
    access.accesses id = true ↔ id ∈ access.reads ∨ id ∈ access.writes := by
  simp [accesses]

/-- Two declarations conflict if one of them writes what the other one touches. -/
theorem conflictsWith_eq_true_iff {access other : Access} :
    access.conflictsWith other = true
      ↔ ∃ id, (id ∈ access.writes ∧ other.accesses id = true)
          ∨ (id ∈ access.reads ∧ id ∈ other.writes) := by
  simp only [conflictsWith, Bool.or_eq_true, KeySet.meets_eq_true_iff, accesses_eq_true_iff]
  constructor
  · rintro ((⟨id, hleft, hright⟩ | ⟨id, hleft, hright⟩) | ⟨id, hleft, hright⟩)
    · exact ⟨id, Or.inl ⟨hleft, Or.inr hright⟩⟩
    · exact ⟨id, Or.inl ⟨hleft, Or.inl hright⟩⟩
    · exact ⟨id, Or.inr ⟨hleft, hright⟩⟩
  · rintro ⟨id, ⟨hleft, hright | hright⟩ | ⟨hleft, hright⟩⟩
    · exact Or.inl (Or.inr ⟨id, hleft, hright⟩)
    · exact Or.inl (Or.inl ⟨id, hleft, hright⟩)
    · exact Or.inr ⟨id, hleft, hright⟩

end Access

end TickWaves
