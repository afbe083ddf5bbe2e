import TickWaves.Proofs.Access.Calls
import TickWaves.Proofs.Order.Bisection

/-!
# Access declarations as plain lists

Stored, a declaration is two plain lists (`Access.Sheet`): nothing in them says that they are in
order or have nothing in common.  A call edits the lists at the places that a binary search finds,
so each call is only as right as the calls before it have left the lists.  Starting with empty
lists, the sheet stays the listing of the declaration (`Access.sheet_performAll`), and what it
lists depends on the types alone that were declared (`Access.isNormalForm_performAll`).
-/

namespace TickWaves

open Keyed KeySet

namespace Access

/-- The types a system reads and writes, as two lists. -/
structure Sheet where
  reads : List ComponentId
  writes : List ComponentId
  deriving DecidableEq

namespace Sheet

def empty : Sheet := ⟨[], []⟩

def addRead (sheet : Sheet) (id : ComponentId) : Sheet :=
  if (search sheet.writes id).isPresent then sheet
  else { sheet with reads := (search sheet.reads id).put id sheet.reads }

def addWrite (sheet : Sheet) (id : ComponentId) : Sheet where
  reads := (search sheet.reads id).takeOut sheet.reads
  writes := (search sheet.writes id).put id sheet.writes

def perform (sheet : Sheet) : Call → Sheet
  | .read id => sheet.addRead id
  | .write id => sheet.addWrite id

def performAll (sheet : Sheet) (calls : List Call) : Sheet :=
  calls.foldl perform sheet

def accesses (sheet : Sheet) (id : ComponentId) : Bool :=
  (search sheet.reads id).isPresent || (search sheet.writes id).isPresent

def conflictsWith (sheet other : Sheet) : Bool :=
  sideBySide sheet.writes other.writes
    || sideBySide sheet.writes other.reads
    || sideBySide sheet.reads other.writes

end Sheet

def sheet (access : Access) : Sheet := ⟨access.reads.toList, access.writes.toList⟩

theorem sheet_injective {access other : Access} (hsheet : access.sheet = other.sheet) :
    access = other :=
  ext_sets (ext_toList (congrArg Sheet.reads hsheet)) (ext_toList (congrArg Sheet.writes hsheet))

section Edits

variable (access other : Access) (id : ComponentId)

theorem sheet_addRead : (access.addRead id).sheet = access.sheet.addRead id := by
  have hfound : id ∈ access.writes ↔ (search access.sheet.writes id).isPresent = true :=
    mem_iff_isPresent_search
  by_cases hwritten : id ∈ access.writes
  · rw [addRead, dif_pos hwritten, Sheet.addRead, if_pos (hfound.mp hwritten)]
  · rw [addRead, dif_neg hwritten, Sheet.addRead, if_neg (mt hfound.mpr hwritten)]
    exact congrArg (Sheet.mk · access.writes.toList) (toList_insert access.reads id)

theorem sheet_addWrite : (access.addWrite id).sheet = access.sheet.addWrite id :=
  congrArg₂ Sheet.mk (toList_erase access.reads id) (toList_insert access.writes id)

theorem sheet_perform (call : Call) : (access.perform call).sheet = access.sheet.perform call := by
  cases call with
  | read id => exact sheet_addRead access id
  | write id => exact sheet_addWrite access id

/-- The edits by binary search keep the sheet the listing of the declaration. -/
theorem sheet_performAll (calls : List Call) :
    (access.performAll calls).sheet = access.sheet.performAll calls := by
  induction calls generalizing access with
  | nil => rfl
  | cons call calls ih =>
      calc
        (access.performAll (call :: calls)).sheet
            = (access.perform call).sheet.performAll calls := ih (access.perform call)
        _ = access.sheet.performAll (call :: calls) := by rw [sheet_perform]; rfl

theorem accesses_sheet : access.sheet.accesses id = access.accesses id := by
  rw [Bool.eq_iff_iff, accesses_eq_true_iff, mem_iff_isPresent_search, mem_iff_isPresent_search,
    Sheet.accesses, Bool.or_eq_true]
  rfl

theorem conflictsWith_sheet :
    access.sheet.conflictsWith other.sheet = access.conflictsWith other := by
  simp only [Sheet.conflictsWith, conflictsWith, meets, meet_eq_sideBySide]
  rfl

end Edits

/-- A sheet is the normal form of what calls declare: it lists the types, each once and in
ascending order, and a type that is written is not listed as read. -/
structure Sheet.IsNormalForm (sheet : Sheet) (calls : List Call) : Prop where
  writes_ascending : sheet.writes.Pairwise fun id other => key id < key other
  mem_writes_iff : ∀ id, id ∈ sheet.writes ↔ Call.write id ∈ calls
  reads_ascending : sheet.reads.Pairwise fun id other => key id < key other
  mem_reads_iff : ∀ id, id ∈ sheet.reads ↔ Call.read id ∈ calls ∧ Call.write id ∉ calls
  disjoint : sheet.reads.Disjoint sheet.writes
  accesses_iff : ∀ id, sheet.accesses id = true ↔ Call.read id ∈ calls ∨ Call.write id ∈ calls

/-- Calls declare the same types as written, and the same types as read and not written. -/
def Call.Agree (calls calls' : List Call) : Prop :=
  (∀ id, Call.write id ∈ calls ↔ Call.write id ∈ calls') ∧
    ∀ id, (Call.read id ∈ calls ∧ Call.write id ∉ calls) ↔
      (Call.read id ∈ calls' ∧ Call.write id ∉ calls')

section Made

variable (calls calls' : List Call)

theorem isNormalForm_sheet : (empty.performAll calls).sheet.IsNormalForm calls := by
  constructor
  case writes_ascending => exact (empty.performAll calls).writes.ascending
  case mem_writes_iff => exact fun _ => mem_writes_made
  case reads_ascending => exact (empty.performAll calls).reads.ascending
  case mem_reads_iff => exact fun _ => mem_reads_made
  case disjoint => exact fun id hread hwrite => (empty.performAll calls).disjoint id hread hwrite
  case accesses_iff =>
    intro id
    rw [accesses_sheet, accesses_made]

theorem performAll_eq_iff_agree :
    empty.performAll calls = empty.performAll calls' ↔ Call.Agree calls calls' := by
  constructor
  · intro heq
    constructor
    · intro id
      rw [← mem_writes_made, heq, mem_writes_made]
    · intro id
      rw [← mem_reads_made, heq, mem_reads_made]
  · rintro ⟨hwrites, hreads⟩
    apply ext_sets
    · apply KeySet.ext_mem
      intro id
      rw [mem_reads_made, mem_reads_made, hreads]
    · apply KeySet.ext_mem
      intro id
      rw [mem_writes_made, mem_writes_made, hwrites]

/-- Any calls, in any order and with any repetitions, leave the normal form of what they declare,
and two declarations are the same exactly if their calls agree. -/
theorem isNormalForm_performAll :
    (empty.performAll calls).sheet = Sheet.empty.performAll calls ∧
      (Sheet.empty.performAll calls).IsNormalForm calls ∧
      (Sheet.empty.performAll calls = Sheet.empty.performAll calls' ↔
        Call.Agree calls calls') ∧
      (empty.performAll calls = empty.performAll calls' ↔ Call.Agree calls calls') ∧
      ∀ id, (empty.performAll calls).accesses id = true ↔
        Call.read id ∈ calls ∨ Call.write id ∈ calls := by
  have hsheet : ∀ calls, (empty.performAll calls).sheet = Sheet.empty.performAll calls :=
    sheet_performAll empty
  refine ⟨hsheet calls, ?_, ?_, performAll_eq_iff_agree calls calls', fun _ => accesses_made⟩
  · rw [← hsheet]
    exact isNormalForm_sheet calls
  · rw [← hsheet, ← hsheet, ← performAll_eq_iff_agree]
    exact ⟨sheet_injective, congrArg sheet⟩

example :
    (empty.performAll [.read ⟨3⟩, .read ⟨1⟩, .read ⟨2⟩, .write ⟨2⟩, .read ⟨2⟩]).sheet =
      ⟨[⟨1⟩, ⟨3⟩], [⟨2⟩]⟩ := by
  decide

end Made

end Access

end TickWaves
