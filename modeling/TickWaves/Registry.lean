import TickWaves.Ident

/-!
# Component names

A registry remembers which name stands behind an identifier, so that two names with one
hash are noticed when the second one is registered.  The first name keeps the
identifier.
-/

namespace TickWaves

/-- Two names with one identifier. -/
structure NameCollision where
  id : ComponentId
  existing : String
  incoming : String
  deriving DecidableEq

def NameCollision.message (collision : NameCollision) : String :=
  "component name collision on " ++ collision.id.text ++ ": `" ++ collision.existing
    ++ "` and `" ++ collision.incoming ++ "`"

structure Registry where
  /-- Every registered identifier with its name, in the order of registration. -/
  names : List (ComponentId × String)
  deriving DecidableEq, Inhabited

namespace Registry

def empty : Registry := ⟨[]⟩

def nameOf? (registry : Registry) (id : ComponentId) : Option String :=
  registry.names.lookup id

def size (registry : Registry) : Nat := registry.names.length

/-- Puts a name under an identifier, unless another name is there. -/
def insert (registry : Registry) (id : ComponentId) (name : String) :
    Except NameCollision Registry :=
  match registry.nameOf? id with
  | none => .ok ⟨registry.names ++ [(id, name)]⟩
  | some existing =>
      if existing = name then .ok registry else .error ⟨id, existing, name⟩

def registerComponent (registry : Registry) (name : String) :
    Except NameCollision (ComponentId × Registry) :=
  (registry.insert (ComponentId.ofName name) name).map (ComponentId.ofName name, ·)

/-- Registers a resource by its name, under its full name. -/
def registerResource (registry : Registry) (name : String) :
    Except NameCollision (ComponentId × Registry) :=
  (registry.insert (ComponentId.resource name) (ComponentId.resourceMark ++ name)).map
    (ComponentId.resource name, ·)

end Registry

end TickWaves
