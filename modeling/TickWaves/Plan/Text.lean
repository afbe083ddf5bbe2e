import TickWaves.Json.Document
import TickWaves.Plan.Basic

/-!
# Plans as JSON

A plan is written with its generation, the members of its waves, its systems without
their bodies, and its constraints.
-/

namespace TickWaves

universe u

open Json

def SystemId.document (id : SystemId) : Document := .number id.number

def Wave.document (wave : Wave) : Document :=
  .record [("members", .list (wave.members.map SystemId.document))]

def Precedence.document (precedence : Precedence) : Document :=
  .record
    [("before", precedence.before.document),
     ("after", precedence.after.document),
     ("reason", .text precedence.reason.text)]

variable {β : Type u}

def PlannedSystem.document (system : PlannedSystem β) : Document :=
  .record
    [("id", system.id.document),
     ("name", .text system.name),
     ("wave", .number system.wave),
     ("main_thread", .flag system.onMainThread)]

def Plan.document (plan : Plan β) : Document :=
  .record
    [("generation", .number plan.generation),
     ("waves", .list (plan.waves.map Wave.document)),
     ("systems", .list (plan.systems.map PlannedSystem.document)),
     ("edges", .list (plan.precedences.map Precedence.document))]

end TickWaves
