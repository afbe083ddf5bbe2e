/-!
# What a machine can provide

A list is kept in one piece of memory.  A piece that is larger than all addresses is out of
the question on every machine; a smaller one may still be more than the memory there is.
The number of threads is limited, too.
-/

namespace TickWaves

structure Machine where
  cores : Nat
  /-- The number of bytes that one list can take. -/
  memory : Nat
  threads : Nat
  deriving DecidableEq, Inhabited

namespace Machine

/-- What a machine lacks. -/
inductive Shortage
  | addresses
  /-- So many bytes are not there in one piece. -/
  | memory (bytes : Nat)
  | threads
  deriving DecidableEq, Inhabited

/-- A machine with the given number of cores, a terabyte of memory and as many threads as
fit beside each other. -/
def ofCores (cores : Nat) : Machine := ⟨cores, Nat.pow 2 40, Nat.pow 2 15⟩

/-- The number of bytes that have addresses. -/
def addressable : Nat := Nat.pow 2 63 - 1

/-- What is missing for a list of so many elements of so many bytes each. -/
def shortage? (machine : Machine) (count size : Nat) : Option Shortage :=
  let bytes := count * size
  if addressable < bytes then some .addresses
  else if machine.memory < bytes then some (.memory bytes)
  else none

end Machine

end TickWaves
