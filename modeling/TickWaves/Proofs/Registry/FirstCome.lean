import Mathlib.Data.Finset.Dedup
import TickWaves.Proofs.Order.Lookup
import TickWaves.Proofs.Registry.NameSpaces

/-!
# Whoever comes first keeps the identifier

A registry remembers full names under their hashes.  A call whose hash is free or stands for its
own full name is granted, and the name stays from then on, whatever is called later.  Any other
call is refused and changes nothing.  So every name that is remembered stands under its own hash,
and there are as many names as the calls have hashes (`Registry.isConsistent_performAll`).
-/

namespace TickWaves

namespace Registry

def Call.hash (call : Call) : ComponentId := ⟨Fnv.ofText call.fullName⟩

/-- A hash that is fed with the mark first is the hash of the full name. -/
theorem Call.id_eq_hash (call : Call) : call.id = call.hash := by
  cases call with
  | component name => rfl
  | resource name => exact ComponentId.resource_eq_ofName name

def performAll (registry : Registry) (calls : List Call) : Registry :=
  calls.foldl (fun registry call => (registry.step call).2) registry

/-- A call is refused for the sake of another name under its hash, and otherwise granted for
ever. -/
structure Settles (registry : Registry) (call : Call) : Prop where
  ok_iff : ∀ id, (registry.step call).1 = .ok id ↔
    id = call.hash ∧ ∀ existing, registry.nameOf? call.hash = some existing →
      existing = call.fullName
  granted : ∀ id, (registry.step call).1 = .ok id → ∀ later,
    ((registry.step call).2.performAll later).nameOf? id = some call.fullName
  error_iff : ∀ collision, (registry.step call).1 = .error collision ↔
    ∃ existing, registry.nameOf? call.hash = some existing ∧ existing ≠ call.fullName ∧
      collision = ⟨call.hash, existing, call.fullName⟩
  unchanged : ∀ collision, (registry.step call).1 = .error collision →
    (registry.step call).2 = registry

/-- Every name stands under its own hash, once, and the hashes are those of some calls. -/
structure Records (registry : Registry) (calls : List Call) : Prop where
  hashed : ∀ entry ∈ registry.names, entry.1 = ⟨Fnv.ofText entry.2⟩
  distinct : (registry.names.map Prod.fst).Nodup
  mem_iff : ∀ id, id ∈ registry.names.map Prod.fst ↔ ∃ call ∈ calls, call.hash = id

/-- What some calls leave: the next call is settled, names stand under their hashes, and there is
one for every hash of the calls. -/
structure IsConsistent (registry : Registry) (calls : List Call) : Prop
    extends registry.Records calls where
  settles : ∀ call, registry.Settles call
  hash_eq : ∀ id name, registry.nameOf? id = some name → id = ⟨Fnv.ofText name⟩
  size_eq : registry.size = (calls.map Call.hash).toFinset.card

section Step

variable (registry : Registry) (call : Call)

/-- What a call can do. -/
theorem step_cases :
    (registry.nameOf? call.hash = none ∧
        registry.step call = (.ok call.hash, ⟨registry.names ++ [(call.hash, call.fullName)]⟩)) ∨
      (registry.nameOf? call.hash = some call.fullName ∧
        registry.step call = (.ok call.hash, registry)) ∨
      ∃ existing, registry.nameOf? call.hash = some existing ∧ existing ≠ call.fullName ∧
        registry.step call = (.error ⟨call.hash, existing, call.fullName⟩, registry) := by
  rw [step, register_eq, insert, call.id_eq_hash]
  cases hname : registry.nameOf? call.hash with
  | none => simp [Except.map]
  | some existing => by_cases hexisting : existing = call.fullName <;> simp [Except.map, hexisting]

/-- A name stays under its identifier, whatever is called. -/
theorem nameOf?_performAll (calls : List Call) (id : ComponentId) :
    (registry.performAll calls).nameOf? id = registry.holder? calls id := by
  induction calls generalizing registry with
  | nil => exact Option.or_none.symm
  | cons call calls ih =>
      calc
        (registry.performAll (call :: calls)).nameOf? id
            = (registry.step call).2.holder? calls id := ih (registry.step call).2
        _ = registry.holder? (call :: calls) id := (registry.holder?_cons call calls id).symm

theorem nameOf?_performAll_of_eq_some {id : ComponentId} {name : String}
    (hname : registry.nameOf? id = some name) (calls : List Call) :
    (registry.performAll calls).nameOf? id = some name := by
  rw [nameOf?_performAll, holder?, hname, Option.some_or]

theorem settles_of_granted
    (hname : ∀ existing, registry.nameOf? call.hash = some existing → existing = call.fullName)
    (hanswer : (registry.step call).1 = .ok call.hash) : registry.Settles call := by
  have hheld : (registry.step call).2.nameOf? call.hash = some call.fullName := by
    rw [nameOf?_step, call.id_eq_hash, if_pos rfl]
    cases hexisting : registry.nameOf? call.hash with
    | none => rfl
    | some existing => rw [hname existing hexisting]; rfl
  constructor
  case ok_iff =>
    intro id
    rw [hanswer, Except.ok.injEq, eq_comm]
    exact (and_iff_left hname).symm
  case granted =>
    intro id hid later
    rw [hanswer] at hid
    rw [← Except.ok.inj hid]
    exact nameOf?_performAll_of_eq_some _ hheld later
  case error_iff =>
    intro collision
    rw [hanswer]
    constructor
    · intro herror
      cases herror
    · rintro ⟨existing, hexisting, hother, -⟩
      exact absurd (hname existing hexisting) hother
  case unchanged =>
    intro collision herror
    rw [hanswer] at herror
    cases herror

theorem settles_of_refused {existing : String}
    (hname : registry.nameOf? call.hash = some existing) (hother : existing ≠ call.fullName)
    (hstep : registry.step call = (.error ⟨call.hash, existing, call.fullName⟩, registry)) :
    registry.Settles call := by
  constructor
  case ok_iff =>
    intro id
    rw [hstep]
    constructor
    · intro hok
      cases hok
    · rintro ⟨-, hsame⟩
      exact absurd (hsame existing hname) hother
  case granted =>
    intro id hok
    rw [hstep] at hok
    cases hok
  case error_iff =>
    intro collision
    simp only [hstep, hname, Option.some.injEq, Except.error.injEq]
    constructor
    · rintro rfl
      exact ⟨existing, rfl, hother, rfl⟩
    · rintro ⟨_, rfl, -, rfl⟩
      rfl
  case unchanged =>
    intro collision _
    rw [hstep]

theorem settles : registry.Settles call := by
  rcases registry.step_cases call with ⟨hname, hstep⟩ | ⟨hname, hstep⟩ |
    ⟨existing, hname, hother, hstep⟩
  · exact registry.settles_of_granted call (by simp [hname]) (congrArg Prod.fst hstep)
  · exact registry.settles_of_granted call (by simp [hname]) (congrArg Prod.fst hstep)
  · exact registry.settles_of_refused call hname hother hstep

end Step

theorem mem_names_of_nameOf?_eq_some {registry : Registry} {id : ComponentId} {name : String}
    (hname : registry.nameOf? id = some name) : (id, name) ∈ registry.names :=
  mem_of_lookup_eq_some hname

theorem not_mem_of_nameOf?_eq_none {registry : Registry} {id : ComponentId}
    (hname : registry.nameOf? id = none) : id ∉ registry.names.map Prod.fst := by
  intro hid
  obtain ⟨name, hsome⟩ := exists_lookup_eq_some hid
  rw [nameOf?, hsome] at hname
  cases hname

theorem records_empty : empty.Records [] where
  hashed _ hentry := by cases hentry
  distinct := List.nodup_nil
  mem_iff id := by simp [empty]

namespace Records

variable {registry : Registry} {calls : List Call} (hrecords : registry.Records calls)
include hrecords

/-- A free hash gets the name of the call. -/
theorem append {call : Call} (hname : registry.nameOf? call.hash = none) :
    Records ⟨registry.names ++ [(call.hash, call.fullName)]⟩ (calls ++ [call]) where
  hashed entry hentry := by
    rcases List.mem_append.mp hentry with hold | hnew
    · exact hrecords.hashed entry hold
    · rw [List.mem_singleton.mp hnew]
      rfl
  distinct := by
    rw [List.map_append, List.map_singleton, ← List.concat_eq_append]
    exact hrecords.distinct.concat (not_mem_of_nameOf?_eq_none hname)
  mem_iff id := by
    rw [List.map_append, List.mem_append, hrecords.mem_iff]
    simp only [List.map_singleton, List.mem_append, List.mem_singleton, or_and_right, exists_or,
      exists_eq_left, @eq_comm _ id]

/-- A hash that is taken is counted already. -/
theorem keep {call : Call} {existing : String}
    (hname : registry.nameOf? call.hash = some existing) : registry.Records (calls ++ [call]) where
  hashed := hrecords.hashed
  distinct := hrecords.distinct
  mem_iff id := by
    have htaken := (hrecords.mem_iff call.hash).mp
      (List.mem_map_of_mem (f := Prod.fst) (mem_names_of_nameOf?_eq_some hname))
    rw [hrecords.mem_iff]
    simp only [List.mem_append, List.mem_singleton, or_and_right, exists_or, exists_eq_left]
    constructor
    · exact Or.inl
    · rintro (hold | rfl)
      · exact hold
      · exact htaken

theorem step (call : Call) : (registry.step call).2.Records (calls ++ [call]) := by
  rcases registry.step_cases call with ⟨hname, hstep⟩ | ⟨hname, hstep⟩ | ⟨_, hname, -, hstep⟩
  · rw [hstep]
    exact hrecords.append hname
  · rw [hstep]
    exact hrecords.keep hname
  · rw [hstep]
    exact hrecords.keep hname

theorem size_eq : registry.size = (calls.map Call.hash).toFinset.card := by
  have hids : (registry.names.map Prod.fst).toFinset = (calls.map Call.hash).toFinset := by
    ext id
    rw [List.mem_toFinset, List.mem_toFinset, hrecords.mem_iff, List.mem_map]
  calc
    registry.size = (registry.names.map Prod.fst).length := (List.length_map _).symm
    _ = (registry.names.map Prod.fst).toFinset.card :=
      (List.toFinset_card_of_nodup hrecords.distinct).symm
    _ = (calls.map Call.hash).toFinset.card := by rw [hids]

end Records

theorem records_performAll (calls : List Call) : (empty.performAll calls).Records calls := by
  induction calls using List.reverseRecOn with
  | nil => exact records_empty
  | append_singleton calls call ih =>
      have hlast : empty.performAll (calls ++ [call]) = ((empty.performAll calls).step call).2 :=
        List.foldl_concat _ empty call calls
      rw [hlast]
      exact ih.step call

/-- Whatever was called before, a call is settled by the name under its hash, every name stands
under its own hash, and there is one for every hash that was called. -/
theorem isConsistent_performAll (calls : List Call) :
    (empty.performAll calls).IsConsistent calls where
  toRecords := records_performAll calls
  settles := (empty.performAll calls).settles
  hash_eq _ _ hname := (records_performAll calls).hashed _ (mem_names_of_nameOf?_eq_some hname)
  size_eq := (records_performAll calls).size_eq

end Registry

end TickWaves
