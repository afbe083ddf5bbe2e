import TickWaves.Tick.Pool

/-!
# Settings of a scheduler

How many worker threads there are, how they are named, and how many run times are kept
for each system.
-/

namespace TickWaves

structure Config where
  /-- The number of worker threads; with none, everything runs on the calling thread. -/
  workers : Nat
  /-- The number of run times kept for each system, before it is bounded. -/
  samples : Nat
  threadLabel : String
  deriving DecidableEq, Inhabited

namespace Config

/-- The settings for a machine with the given number of cores: one core is left for the
coordinating thread. -/
def ofCores (cores : Nat) : Config := ⟨max (cores - 1) 1, 16, "ecs-worker"⟩

def withWorkers (config : Config) (workers : Nat) : Config :=
  { config with workers := workers }

def withSamples (config : Config) (samples : Nat) : Config :=
  { config with samples := samples }

def withThreadLabel (config : Config) (threadLabel : String) : Config :=
  { config with threadLabel := threadLabel }

def pool (config : Config) : Pool :=
  if config.workers = 0 then .inline else .threads config.workers config.threadLabel

end Config

end TickWaves
