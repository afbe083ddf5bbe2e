import TickWaves.System.Descriptor

/-!
# The conflict test

Which of two systems is asked makes no difference.  A system with a wave for itself is in
conflict with every other one, and two systems that share a type which one of them writes
are in conflict whatever else they declare.
-/

namespace TickWaves

universe u

theorem Access.conflictsWith_comm (access other : Access) :
    access.conflictsWith other = other.conflictsWith access := by
  have hhalf : ∀ {left right : Access},
      left.conflictsWith right = true → right.conflictsWith left = true := by
    intro left right hconflict
    rw [Access.conflictsWith_eq_true_iff] at hconflict ⊢
    obtain ⟨id, ⟨hwrites, htouches⟩ | ⟨hreads, hwrites⟩⟩ := hconflict
    · rw [Access.accesses_eq_true_iff] at htouches
      rcases htouches with hreads' | hwrites'
      · exact ⟨id, Or.inr ⟨hreads', hwrites⟩⟩
      · exact ⟨id, Or.inl ⟨hwrites', Access.accesses_eq_true_iff.mpr (Or.inr hwrites)⟩⟩
    · exact ⟨id, Or.inl ⟨hwrites, Access.accesses_eq_true_iff.mpr (Or.inl hreads)⟩⟩
  exact Bool.eq_iff_iff.mpr ⟨hhalf, hhalf⟩

namespace Descriptor

variable {β : Type u}

theorem excludes_comm (descriptor other : Descriptor β) :
    descriptor.excludes other = other.excludes descriptor := by
  rw [excludes, excludes, Bool.or_comm]

theorem conflicts_comm (descriptor other : Descriptor β) :
    descriptor.conflicts other = other.conflicts descriptor := by
  rw [conflicts, conflicts, excludes_comm, Access.conflictsWith_comm,
    Bool.or_comm descriptor.isSolitary]

theorem conflicts_of_isSolitary {descriptor : Descriptor β} (other : Descriptor β)
    (hsolitary : descriptor.isSolitary = true) : descriptor.conflicts other = true := by
  simp [conflicts, hsolitary]

/-- Systems that do not conflict share no type that one of them writes. -/
theorem not_accesses_of_not_conflicts {descriptor other : Descriptor β}
    (hclear : descriptor.conflicts other = false) {id : ComponentId}
    (hwrites : id ∈ descriptor.access.writes) : other.access.accesses id = false := by
  cases htouches : other.access.accesses id with
  | false => rfl
  | true =>
      have hconflict : descriptor.access.conflictsWith other.access = true :=
        Access.conflictsWith_eq_true_iff.mpr ⟨id, Or.inl ⟨hwrites, htouches⟩⟩
      simp [conflicts, hconflict] at hclear

end Descriptor

end TickWaves
