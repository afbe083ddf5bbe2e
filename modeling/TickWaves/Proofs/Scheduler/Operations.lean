import TickWaves.Proofs.Scheduler.Freshness

/-!
# Sequences of operations

Everything that can be asked of a scheduler is an `Operation`, and one that fails leaves the
scheduler as it is.  The states that sequences of operations lead to from a new scheduler
are the reachable ones (`reachable_iff_exists_performAll`).
-/

namespace TickWaves.Scheduler

universe u v

variable {β : Type u} {σ : Type v}

/-- What can be asked of a scheduler. -/
inductive Operation (β : Type u) (σ : Type v)
  | register (descriptor : Descriptor β)
  | unregister (id : SystemId)
  | unregisterModule (owner : ModuleId)
  | setTagOrder (tags : TagOrder)
  | prepare
  | rebuild
  | runTick (context : TickContext) (halt : Nat → σ → Bool) (shared : σ)

variable [Behaviour β σ]

def perform (scheduler : Scheduler β) : Operation β σ → Scheduler β
  | .register descriptor =>
      match scheduler.register descriptor with
      | .error _ => scheduler
      | .ok (_, result) => result
  | .unregister id =>
      match scheduler.unregister id with
      | .error _ => scheduler
      | .ok result => result
  | .unregisterModule owner =>
      match scheduler.unregisterModule owner with
      | .error _ => scheduler
      | .ok (_, result) => result
  | .setTagOrder tags => scheduler.setTagOrder tags
  | .prepare =>
      match scheduler.prepare with
      | .error _ => scheduler
      | .ok result => result
  | .rebuild =>
      match scheduler.rebuild with
      | .error _ => scheduler
      | .ok result => result
  | .runTick context halt shared => (scheduler.runTick context halt shared).2.1

def performAll (scheduler : Scheduler β) (operations : List (Operation β σ)) : Scheduler β :=
  operations.foldl perform scheduler

theorem performAll_concat (scheduler : Scheduler β) (operations : List (Operation β σ))
    (operation : Operation β σ) :
    scheduler.performAll (operations ++ [operation]) =
      (scheduler.performAll operations).perform operation :=
  List.foldl_concat _ _ _ _

variable {config : Config} {pool : Pool} {scheduler : Scheduler β}

theorem Reachable.perform (hreach : Reachable σ config pool scheduler)
    (operation : Operation β σ) :
    Reachable σ config pool (scheduler.perform operation) := by
  cases operation with
  | register descriptor =>
      cases hresult : scheduler.register descriptor with
      | error error => simpa [Scheduler.perform, hresult] using hreach
      | ok result => simpa [Scheduler.perform, hresult] using hreach.register _ _ hresult
  | unregister id =>
      cases hresult : scheduler.unregister id with
      | error error => simpa [Scheduler.perform, hresult] using hreach
      | ok result => simpa [Scheduler.perform, hresult] using hreach.unregister _ hresult
  | unregisterModule owner =>
      cases hresult : scheduler.unregisterModule owner with
      | error error => simpa [Scheduler.perform, hresult] using hreach
      | ok result =>
          simpa [Scheduler.perform, hresult] using hreach.unregisterModule _ _ hresult
  | setTagOrder tags => exact hreach.setTagOrder tags
  | prepare =>
      cases hresult : scheduler.prepare with
      | error error => simpa [Scheduler.perform, hresult] using hreach
      | ok result => simpa [Scheduler.perform, hresult] using hreach.prepare hresult
  | rebuild =>
      cases hresult : scheduler.rebuild with
      | error error => simpa [Scheduler.perform, hresult] using hreach
      | ok result => simpa [Scheduler.perform, hresult] using hreach.rebuild hresult
  | runTick context halt shared => exact hreach.runTick context halt shared

theorem Reachable.performAll (hreach : Reachable σ config pool scheduler)
    (operations : List (Operation β σ)) :
    Reachable σ config pool (scheduler.performAll operations) := by
  induction operations generalizing scheduler with
  | nil => exact hreach
  | cons operation operations ih => exact ih (hreach.perform operation)

/-- The reachable states are those that sequences of operations lead to. -/
theorem reachable_iff_exists_performAll :
    Reachable σ config pool scheduler ↔
      ∃ operations : List (Operation β σ),
        (withPool config pool).performAll operations = scheduler := by
  constructor
  · intro hreach
    have hnext : ∀ {before after : Scheduler β} (operation : Operation β σ),
        before.perform operation = after →
          (∃ operations : List (Operation β σ),
            (withPool config pool).performAll operations = before) →
          ∃ operations : List (Operation β σ),
            (withPool config pool).performAll operations = after := by
      rintro _ _ operation rfl ⟨operations, rfl⟩
      exact ⟨operations ++ [operation], performAll_concat _ _ _⟩
    induction hreach with
    | start => exact ⟨[], rfl⟩
    | register descriptor id _ hresult ih =>
        exact hnext (.register descriptor) (by simp [Scheduler.perform, hresult]) ih
    | unregister id _ hresult ih =>
        exact hnext (.unregister id) (by simp [Scheduler.perform, hresult]) ih
    | unregisterModule owner removed _ hresult ih =>
        exact hnext (.unregisterModule owner) (by simp [Scheduler.perform, hresult]) ih
    | setTagOrder tags _ ih => exact hnext (.setTagOrder tags) rfl ih
    | prepare _ hresult ih => exact hnext .prepare (by simp [Scheduler.perform, hresult]) ih
    | rebuild _ hresult ih => exact hnext .rebuild (by simp [Scheduler.perform, hresult]) ih
    | runTick context halt shared _ ih => exact hnext (.runTick context halt shared) rfl ih
  · rintro ⟨operations, rfl⟩
    exact Reachable.start.performAll operations

end TickWaves.Scheduler
