import TickWaves.Proofs.System.Conflict
import TickWaves.Tick.Body

/-!
# Bodies that keep to what their systems declare

Here the systems share a store with a value for every component type.  A body that
changes only what its system writes, and looks only at what its system accesses, may be
exchanged with the body of any system that is not in conflict (`KeepsTo.shared_comm`).
-/

namespace TickWaves

universe u v

/-- A value for every component type. -/
abbrev Store (ν : Type v) := ComponentId → ν

/-- Two stores are the same as far as a declaration goes. -/
def Access.AgreesOn {ν : Type v} (access : Access) (left right : Store ν) : Prop :=
  ∀ id, access.accesses id = true → left id = right id

namespace Descriptor

variable {β : Type u} {ν : Type v} [Behaviour β (Store ν)]

variable (ν) in
/-- The body of a system changes only what the system writes, and what it does depends
only on what the system accesses. -/
structure KeepsTo (descriptor : Descriptor β) (context : TickContext) : Prop where
  frame : ∀ lane (store : Store ν) id, ¬ id ∈ descriptor.access.writes →
    (Behaviour.run descriptor.body context lane store).shared id = store id
  ending : ∀ lane lane' (store store' : Store ν),
    descriptor.access.AgreesOn store store' →
      (Behaviour.run descriptor.body context lane store).ending =
        (Behaviour.run descriptor.body context lane' store').ending
  effect : ∀ lane lane' (store store' : Store ν),
    descriptor.access.AgreesOn store store' → ∀ id, id ∈ descriptor.access.writes →
      (Behaviour.run descriptor.body context lane store).shared id =
        (Behaviour.run descriptor.body context lane' store').shared id

namespace KeepsTo

variable {descriptor first second : Descriptor β} {context : TickContext}

theorem ending_lane (hkeeps : descriptor.KeepsTo ν context) (lane lane' : Lane)
    (store : Store ν) :
    (Behaviour.run descriptor.body context lane store).ending =
      (Behaviour.run descriptor.body context lane' store).ending := by
  apply hkeeps.ending
  intro id _
  rfl

theorem shared_lane (hkeeps : descriptor.KeepsTo ν context) (lane lane' : Lane)
    (store : Store ν) :
    (Behaviour.run descriptor.body context lane store).shared =
      (Behaviour.run descriptor.body context lane' store).shared := by
  funext id
  by_cases hwrites : id ∈ descriptor.access.writes
  · apply hkeeps.effect _ _ _ _ _ id hwrites
    intro other _
    rfl
  · rw [hkeeps.frame lane store id hwrites, hkeeps.frame lane' store id hwrites]

/-- A body leaves alone what a system without conflict accesses. -/
theorem agreesOn_shared (hkeeps : first.KeepsTo ν context)
    (hclear : first.conflicts second = false) (lane : Lane) (store : Store ν) :
    second.access.AgreesOn (Behaviour.run first.body context lane store).shared store := by
  intro id haccess
  apply hkeeps.frame
  intro hwrites
  rw [not_accesses_of_not_conflicts hclear hwrites] at haccess
  cases haccess

theorem ending_shared (hfirst : first.KeepsTo ν context)
    (hsecond : second.KeepsTo ν context) (hclear : first.conflicts second = false)
    (lane lane' : Lane) (store : Store ν) :
    (Behaviour.run second.body context lane'
        (Behaviour.run first.body context lane store).shared).ending =
      (Behaviour.run second.body context lane' store).ending := by
  apply hsecond.ending
  exact hfirst.agreesOn_shared hclear lane store

/-- Away from what the first system writes, running both bodies is running the second. -/
theorem shared_shared_apply (hfirst : first.KeepsTo ν context)
    (hsecond : second.KeepsTo ν context) (hclear : first.conflicts second = false)
    (lane lane' : Lane) (store : Store ν) {id : ComponentId}
    (hwrites : ¬ id ∈ first.access.writes) :
    (Behaviour.run second.body context lane'
        (Behaviour.run first.body context lane store).shared).shared id =
      (Behaviour.run second.body context lane' store).shared id := by
  by_cases hwrites' : id ∈ second.access.writes
  · apply hsecond.effect _ _ _ _ _ id hwrites'
    exact hfirst.agreesOn_shared hclear lane store
  · rw [hsecond.frame _ _ id hwrites', hsecond.frame _ _ id hwrites',
      hfirst.frame _ _ id hwrites]

/-- Two bodies without conflict leave the same store in either order. -/
theorem shared_comm (hfirst : first.KeepsTo ν context)
    (hsecond : second.KeepsTo ν context) (hclear : first.conflicts second = false)
    (lane lane' : Lane) (store : Store ν) :
    (Behaviour.run second.body context lane'
        (Behaviour.run first.body context lane store).shared).shared =
      (Behaviour.run first.body context lane
        (Behaviour.run second.body context lane' store).shared).shared := by
  have hclear' : second.conflicts first = false := by
    rw [conflicts_comm]
    exact hclear
  funext id
  by_cases hwrites : id ∈ first.access.writes
  · have hleft : ¬ id ∈ second.access.writes := by
      intro hwrites'
      have haccess := not_accesses_of_not_conflicts hclear' hwrites'
      rw [Access.accesses_eq_true_iff.mpr (Or.inr hwrites)] at haccess
      cases haccess
    rw [hsecond.frame _ _ id hleft]
    exact (shared_shared_apply hsecond hfirst hclear' lane' lane store hleft).symm
  · rw [shared_shared_apply hfirst hsecond hclear lane lane' store hwrites]
    rw [hfirst.frame _ _ id hwrites]

end KeepsTo

end Descriptor

end TickWaves
