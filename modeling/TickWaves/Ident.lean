import TickWaves.Order.KeySet
import TickWaves.Text.Bytes
import TickWaves.Text.Hex

/-!
# Identifiers

Component types, modules and sequence tags are named by the hash of their name; systems
are numbered.  Every kind of identifier is a type of its own, keyed by its number.

The hash is FNV-1a of 64 bits: each byte is xored into the state, which is then multiplied
by an odd prime modulo `2^64`.  A hash can be continued, so a text may be fed in pieces
(`Fnv.continued_append`).
-/

namespace TickWaves

namespace Fnv

/-- The state before the first byte. -/
def offsetBasis : UInt64 := 0xcbf29ce484222325

def prime : UInt64 := 0x100000001b3

def step (state : UInt64) (byte : UInt8) : UInt64 :=
  (state ^^^ byte.toUInt64) * prime

/-- Takes all bytes of a list into the state, first byte first. -/
def continued (state : UInt64) (bytes : List UInt8) : UInt64 :=
  bytes.foldl step state

/-- The hash of a text, over its UTF-8 bytes. -/
def ofText (text : String) : UInt64 :=
  continued offsetBasis (Text.bytes text)

@[simp]
theorem continued_append (state : UInt64) (front back : List UInt8) :
    continued state (front ++ back) = continued (continued state front) back := by
  simp [continued]

end Fnv

/-- Names a component type, or a resource that systems share. -/
structure ComponentId where
  word : UInt64
  deriving DecidableEq, Inhabited

namespace ComponentId

instance : Keyed ComponentId where
  key id := id.word.toNat
  key_injective {a b} heq := by
    cases a
    cases b
    exact congrArg mk (UInt64.toNat_inj.mp heq)

/-- What the full name of a resource starts with. -/
def resourceMark : String := "resource:"

def ofName (name : String) : ComponentId :=
  ⟨Fnv.ofText name⟩

/-- The identifier of a resource: the hash of its mark, continued over its name. -/
def resource (name : String) : ComponentId :=
  ⟨Fnv.continued (Fnv.ofText resourceMark) (Text.bytes name)⟩

def text (id : ComponentId) : String :=
  "ComponentTypeId(" ++ Hex.marked id.word ++ ")"

/-- A resource has the identifier that a component with its full name would have. -/
theorem resource_eq_ofName (name : String) :
    resource name = ofName (resourceMark ++ name) := by
  simp [resource, ofName, Fnv.ofText]

end ComponentId

/-- Names a system.  Numbers start at one; zero asks the table to choose. -/
structure SystemId where
  number : Nat
  deriving DecidableEq, Inhabited

namespace SystemId

instance : Keyed SystemId where
  key id := id.number
  key_injective {a b} heq := by
    cases a
    cases b
    exact congrArg mk heq

def unassigned : SystemId := ⟨0⟩

/-- Whether the identifier was chosen by the caller. -/
def isAssigned (id : SystemId) : Bool := id.number != 0

def text (id : SystemId) : String :=
  "System(" ++ toString id.number ++ ")"

end SystemId

/-- Names the module that owns a set of systems. -/
structure ModuleId where
  word : UInt64
  deriving DecidableEq, Inhabited

namespace ModuleId

def ofName (name : String) : ModuleId := ⟨Fnv.ofText name⟩

def text (id : ModuleId) : String :=
  "Module(" ++ Hex.marked id.word ++ ")"

end ModuleId

/-- Names a group of systems that are put in sequence together. -/
structure Tag where
  word : UInt64
  deriving DecidableEq, Inhabited

namespace Tag

instance : Keyed Tag where
  key tag := tag.word.toNat
  key_injective {a b} heq := by
    cases a
    cases b
    exact congrArg mk (UInt64.toNat_inj.mp heq)

def ofName (name : String) : Tag := ⟨Fnv.ofText name⟩

def text (tag : Tag) : String :=
  "Tag(" ++ Hex.marked tag.word ++ ")"

end Tag

end TickWaves
