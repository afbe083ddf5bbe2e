import TickWaves.Time.Duration

/-!
# Running the body of a system

A body runs once per tick.  It sees the tick, the thread it runs on and whatever the
systems share, and it ends well, with an error or by a panic.  What bodies are is left
open: `Behaviour` says how one runs.
-/

namespace TickWaves

universe u v

/-- What every body is told about the tick. -/
structure TickContext where
  tick : Nat
  /-- The simulated time of the tick, in seconds. -/
  dt : Float
  deriving Inhabited

/-- Which thread a body runs on. -/
inductive Lane
  /-- The thread that runs the tick. -/
  | coordinator
  /-- A thread of the worker pool. -/
  | worker
  deriving DecidableEq, Inhabited

/-- What a panic carries. -/
inductive Payload
  | text (message : String)
  /-- Something that is no message. -/
  | other
  deriving DecidableEq, Inhabited

def Payload.message : Payload → String
  | .text message => message
  | .other => "non-string panic payload"

inductive Ending
  | done
  /-- It returns an error: the outermost cause first, the root cause last. -/
  | failed (causes : List String)
  | panicked (payload : Payload)
  deriving DecidableEq, Inhabited

/-- What comes of running a body. -/
structure Reply (σ : Type v) where
  ending : Ending
  /-- What the systems share, after the run. -/
  shared : σ
  took : Duration

/-- How the bodies of a kind act on what they share. -/
class Behaviour (β : Type u) (σ : Type v) where
  run : β → TickContext → Lane → σ → Reply σ

end TickWaves
