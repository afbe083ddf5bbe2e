import TickWaves.System.Descriptor

/-!
# The table of registered systems

The table keeps descriptors in the order of their registration, which breaks ties when
a plan is made.  Each registration takes the next sequence number; an index leads from
an identifier to the sequence number of its entry.  A system that asks for no identifier
gets the least one that is free and above all identifiers given out before.
-/

namespace TickWaves

universe u

/-- Why a system could not be registered or removed.  The table stays as it was. -/
inductive TableError
  /-- The identifier that was asked for is taken. -/
  | duplicateId (id : SystemId)
  | unknownSystem (id : SystemId)
  | unknownModule (owner : ModuleId)
  deriving DecidableEq, Inhabited

def TableError.message : TableError → String
  | .duplicateId id => "system id " ++ id.text ++ " is already registered"
  | .unknownSystem id => "unknown system " ++ id.text
  | .unknownModule owner => "module " ++ owner.text ++ " owns no registered systems"

structure Table (β : Type u) where
  /-- The descriptors with their sequence numbers, in ascending order. -/
  entries : List (Nat × Descriptor β)
  index : List (SystemId × Nat)
  nextSequence : Nat
  /-- The number from which the next free identifier is searched. -/
  nextId : Nat

namespace Table

variable {β : Type u}

def empty : Table β := ⟨[], [], 0, 1⟩

instance : Inhabited (Table β) := ⟨empty⟩

/-- The descriptors, in the order of registration. -/
def toList (table : Table β) : List (Descriptor β) := table.entries.map Prod.snd

def size (table : Table β) : Nat := table.entries.length

def isEmpty (table : Table β) : Bool := table.entries.isEmpty

def contains (table : Table β) (id : SystemId) : Bool := (table.index.lookup id).isSome

def get? (table : Table β) (id : SystemId) : Option (Descriptor β) :=
  (table.index.lookup id).bind fun sequence => table.entries.lookup sequence

/-- The first number from `candidate` on that is no registered identifier.  `room`
numbers are tried before the next one is taken unseen: with as many as there are systems,
that one is free. -/
def freeFrom (table : Table β) : (room : Nat) → (candidate : Nat) → Nat
  | 0, candidate => candidate
  | room + 1, candidate =>
      if table.contains ⟨candidate⟩ then table.freeFrom room (candidate + 1) else candidate

/-- The number that the next system without an identifier gets. -/
def freeNumber (table : Table β) : Nat :=
  table.freeFrom table.index.length table.nextId

/-- Adds a descriptor at the end, under an identifier that is free. -/
def append (table : Table β) (descriptor : Descriptor β) (id : SystemId) : Table β :=
  { table with
    entries := table.entries ++ [(table.nextSequence, descriptor.withId id)]
    index := table.index ++ [(id, table.nextSequence)]
    nextSequence := table.nextSequence + 1 }

/-- Registers a system under the identifier it asks for, or under a free one. -/
def register (table : Table β) (descriptor : Descriptor β) :
    Except TableError (SystemId × Table β) :=
  if descriptor.id.isAssigned then
    if table.contains descriptor.id then .error (.duplicateId descriptor.id)
    else .ok (descriptor.id, table.append descriptor descriptor.id)
  else
    let number := table.freeNumber
    .ok (⟨number⟩, { table.append descriptor ⟨number⟩ with nextId := number + 1 })

def drop (table : Table β) (id : SystemId) (sequence : Nat) : Table β :=
  { table with
    entries := table.entries.filter fun entry => entry.1 != sequence
    index := table.index.filter fun entry => entry.1 != id }

/-- Removes a system and returns its descriptor. -/
def unregister (table : Table β) (id : SystemId) :
    Except TableError (Descriptor β × Table β) :=
  match table.index.lookup id with
  | none => .error (.unknownSystem id)
  | some sequence =>
      match table.entries.lookup sequence with
      | none => .error (.unknownSystem id)
      | some descriptor => .ok (descriptor, table.drop id sequence)

def entriesOf (table : Table β) (owner : ModuleId) : List (Nat × Descriptor β) :=
  table.entries.filter fun entry => entry.2.owner? == some owner

/-- The systems of a module, in the order of registration. -/
def systemsOf (table : Table β) (owner : ModuleId) : List SystemId :=
  (table.entriesOf owner).map fun entry => entry.2.id

/-- Removes all systems of a module and returns their identifiers. -/
def unregisterModule (table : Table β) (owner : ModuleId) :
    Except TableError (List SystemId × Table β) :=
  let doomed := table.entriesOf owner
  if doomed.isEmpty then .error (.unknownModule owner)
  else
    .ok (doomed.map fun entry => entry.2.id,
      doomed.foldl (fun table entry => table.drop entry.2.id entry.1) table)

end Table

end TickWaves
