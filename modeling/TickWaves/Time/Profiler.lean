import TickWaves.Ident
import TickWaves.Time.Duration

/-!
# How long systems run

For every system that has run, the last few run times are kept in a ring.  The first
sample fills the whole ring, so that an average exists from the first run on and
approaches the recent run times from there.
-/

namespace TickWaves

/-- The most recent run times of one system. -/
structure SampleWindow where
  samples : List Duration
  /-- The place of the ring that the next sample takes. -/
  place : Nat
  last : Duration
  deriving DecidableEq, Inhabited

namespace SampleWindow

/-- A ring of the given size filled with one sample. -/
def filled (size : Nat) (sample : Duration) : SampleWindow :=
  ⟨List.replicate size sample, 0, sample⟩

/-- Puts a sample in the place of the oldest one. -/
def record (window : SampleWindow) (sample : Duration) : SampleWindow :=
  ⟨window.samples.set window.place sample, (window.place + 1) % window.samples.length,
    sample⟩

/-- The average of the ring, rounded down to nanoseconds, if the sum of the ring is a
duration. -/
def average? (window : SampleWindow) : Option Duration :=
  (Duration.sum? window.samples).map (·.dividedBy window.samples.length)

end SampleWindow

def maxSamples : Nat := 1024

structure Profiler where
  size : Nat
  /-- The samples of each system, in the order of their first runs. -/
  windows : List (SystemId × SampleWindow)
  deriving DecidableEq, Inhabited

/-- The samples of a system do not add up to a duration. -/
inductive AverageFault
  /-- The sum of the samples is beyond the limit. -/
  | sumTooLarge
  deriving DecidableEq

namespace Profiler

/-- A profiler that keeps the given number of samples, at least one and at most
`maxSamples`. -/
def ofSize (size : Nat) : Profiler :=
  ⟨min (max size 1) maxSamples, []⟩

def window? (profiler : Profiler) (id : SystemId) : Option SampleWindow :=
  profiler.windows.lookup id

def count (profiler : Profiler) : Nat := profiler.windows.length

def isEmpty (profiler : Profiler) : Bool := profiler.windows.isEmpty

def record (profiler : Profiler) (id : SystemId) (sample : Duration) : Profiler :=
  match profiler.window? id with
  | none =>
      { profiler with
        windows := profiler.windows ++ [(id, SampleWindow.filled profiler.size sample)] }
  | some _ =>
      { profiler with
        windows := profiler.windows.map fun entry =>
          if entry.1 = id then (entry.1, entry.2.record sample) else entry }

def forget (profiler : Profiler) (id : SystemId) : Profiler :=
  { profiler with windows := profiler.windows.filter fun entry => entry.1 != id }

/-- The latest run time of a system. -/
def last? (profiler : Profiler) (id : SystemId) : Option Duration :=
  (profiler.window? id).map SampleWindow.last

def average (profiler : Profiler) (id : SystemId) :
    Except AverageFault (Option Duration) :=
  match profiler.window? id with
  | none => .ok none
  | some window =>
      match window.average? with
      | none => .error .sumTooLarge
      | some average => .ok (some average)

end Profiler

end TickWaves
