import TickWaves.Access.Basic

/-!
# System descriptors

A descriptor is what a system says about itself: its name, what it accesses, where it
stands in the sequence of tags, how urgent it is, who owns it, and the body that runs
once per tick.  The kind of bodies is left open: planning never looks at them.
-/

namespace TickWaves

universe u

/-- How a system touches the store of entities itself.  Every system reads it; one that
adds or removes entities writes it. -/
inductive EntityAccess
  /-- The system leaves the set of entities alone. -/
  | read
  /-- The system adds or removes entities. -/
  | write
  deriving DecidableEq, Inhabited

/-- What a system says about itself. -/
structure Descriptor (β : Type u) where
  /-- The identifier, or the request for one. -/
  id : SystemId
  /-- The name, for people. -/
  name : String
  access : Access
  /-- The sequence group, if there is one. -/
  tag? : Option Tag
  /-- The urgency: of two systems in conflict, the one of higher priority goes first. -/
  priority : Int
  /-- The module that owns the system, if there is one. -/
  owner? : Option ModuleId
  isExclusive : Bool
  onMainThread : Bool
  entityAccess : EntityAccess
  /-- Tags whose systems must not share a wave with this one. -/
  excluded : KeySet Tag
  /-- What runs once per tick. -/
  body : β

namespace Descriptor

variable {β : Type u}

def ofBody (name : String) (body : β) : Descriptor β where
  id := SystemId.unassigned
  name := name
  access := Access.empty
  tag? := none
  priority := 0
  owner? := none
  isExclusive := false
  onMainThread := false
  entityAccess := .read
  excluded := KeySet.empty
  body := body

def withId (descriptor : Descriptor β) (id : SystemId) : Descriptor β :=
  { descriptor with id := id }

def reading (descriptor : Descriptor β) (id : ComponentId) : Descriptor β :=
  { descriptor with access := descriptor.access.addRead id }

def writing (descriptor : Descriptor β) (id : ComponentId) : Descriptor β :=
  { descriptor with access := descriptor.access.addWrite id }

/-- Declares the use of a resource, which counts as a write. -/
def usingResource (descriptor : Descriptor β) (name : String) : Descriptor β :=
  descriptor.writing (ComponentId.resource name)

/-- Replaces everything declared about component types. -/
def withAccess (descriptor : Descriptor β) (access : Access) : Descriptor β :=
  { descriptor with access := access }

/-- Puts the system in a sequence group. -/
def withTag (descriptor : Descriptor β) (tag : Tag) : Descriptor β :=
  { descriptor with tag? := some tag }

def withPriority (descriptor : Descriptor β) (priority : Int) : Descriptor β :=
  { descriptor with priority := priority }

def ownedBy (descriptor : Descriptor β) (owner : ModuleId) : Descriptor β :=
  { descriptor with owner? := some owner }

/-- Asks for a wave of its own. -/
def exclusive (descriptor : Descriptor β) : Descriptor β :=
  { descriptor with isExclusive := true }

/-- Binds the body to the coordinating thread. -/
def mainThread (descriptor : Descriptor β) : Descriptor β :=
  { descriptor with onMainThread := true }

/-- Declares that entities are added or removed. -/
def structural (descriptor : Descriptor β) : Descriptor β :=
  { descriptor with entityAccess := .write }

/-- Keeps the system out of the waves of a tag. -/
def notDuring (descriptor : Descriptor β) (tag : Tag) : Descriptor β :=
  { descriptor with excluded := descriptor.excluded.insert tag }

/-- Whether the system must stay out of the waves of another one's tag. -/
def shuns (descriptor other : Descriptor β) : Bool :=
  other.tag?.any fun tag => decide (tag ∈ descriptor.excluded)

def excludes (descriptor other : Descriptor β) : Bool :=
  descriptor.shuns other || other.shuns descriptor

/-- Whether the system is alone in its wave whatever the others declare. -/
def isSolitary (descriptor : Descriptor β) : Bool :=
  descriptor.isExclusive || descriptor.entityAccess == .write

/-- Whether two systems must not share a wave. -/
def conflicts (descriptor other : Descriptor β) : Bool :=
  descriptor.isSolitary || other.isSolitary
    || descriptor.excludes other
    || descriptor.access.conflictsWith other.access

end Descriptor

end TickWaves
