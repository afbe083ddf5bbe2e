import TickWaves.Access.Text
import TickWaves.Main
import TickWaves.Proofs.Scheduler.Freshness
import TickWaves.Proofs.Tick.RaceFreedom
import TickWaves.Proofs.Tick.Serializability
import TickWaves.Proofs.Tick.Replay
import TickWaves.Proofs.Graph.Marks
import TickWaves.Proofs.Graph.CycleCheck
import TickWaves.Proofs.Tick.Course
import TickWaves.Proofs.Tick.Journal
import TickWaves.Proofs.Tick.Policy
import TickWaves.Proofs.Tick.Script
import TickWaves.Proofs.Tick.Progress
import TickWaves.Proofs.Tick.PoolIndependence
import TickWaves.Proofs.Scheduler.Retention
import TickWaves.Proofs.Scheduler.Removal
import TickWaves.Proofs.Plan.Reordering
import TickWaves.Proofs.Plan.Respelling
import TickWaves.Proofs.Registry.FirstCome
import TickWaves.Proofs.System.Removal
import TickWaves.Proofs.System.Roster
import TickWaves.Proofs.Scheduler.Unloading
import TickWaves.Proofs.Plan.Release
import TickWaves.Proofs.Scheduler.Operations
import TickWaves.Proofs.Scheduler.Rebuilds
import TickWaves.Proofs.Pool.Owner
import TickWaves.Proofs.Pool.Delivery
import TickWaves.Proofs.Loop.Cancellation
import TickWaves.Proofs.Loop.Counting
import TickWaves.Proofs.Loop.Limit
import TickWaves.Proofs.Tick.Answers
import TickWaves.Proofs.Tick.Timing
import TickWaves.Proofs.Tick.AnyPool
import TickWaves.Proofs.Graph.Depth
import TickWaves.Proofs.Graph.Rules
import TickWaves.Proofs.Scheduler.Failures
import TickWaves.Proofs.Time.Recording
import TickWaves.Proofs.Graph.Pairs
import TickWaves.Proofs.Access.RoundTrip
import TickWaves.Proofs.Hash.Permutation
import TickWaves.Proofs.System.Numbering
import TickWaves.Proofs.Tags.Closure
