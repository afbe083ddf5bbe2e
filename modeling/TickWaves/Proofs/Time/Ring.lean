import Mathlib.Data.List.Rotate
import TickWaves.Time.Profiler

/-!
# The ring of samples

Read from the place that the next sample takes, a ring lists its samples from the oldest to the
newest.  A sample takes the place of the oldest one, so a ring that was filled with one sample
lists the samples that came later, as far as there is room, behind copies of the first one
(`oldestFirst_recordAll`).
-/

namespace TickWaves

namespace Duration

def total (durations : List Duration) : Nat :=
  durations.foldr (fun duration nanoseconds => duration.nanoseconds + nanoseconds) 0

@[simp]
theorem total_cons (duration : Duration) (durations : List Duration) :
    total (duration :: durations) = duration.nanoseconds + total durations := rfl

theorem total_append (front back : List Duration) :
    total (front ++ back) = total front + total back := by
  induction front with
  | nil => exact (Nat.zero_add _).symm
  | cons duration front ih =>
      rw [List.cons_append, total_cons, total_cons, ih, Nat.add_assoc]

theorem total_replicate (count : Nat) (duration : Duration) :
    total (List.replicate count duration) = count * duration.nanoseconds := by
  induction count with
  | zero => exact (Nat.zero_mul _).symm
  | succ count ih => rw [List.replicate_succ, total_cons, ih, Nat.succ_mul, Nat.add_comm]

theorem total_eq_of_perm {durations durations' : List Duration}
    (hperm : durations.Perm durations') : total durations = total durations' := by
  induction hperm with
  | nil => rfl
  | cons duration _ ih => rw [total_cons, total_cons, ih]
  | swap => exact Nat.add_left_comm _ _ _
  | trans _ _ ih ih' => exact ih.trans ih'

theorem sum?_eq (durations : List Duration) :
    sum? durations = ofNanoseconds? (total durations) := rfl

end Duration

namespace SampleWindow

/-- The samples of the ring, the oldest one first. -/
def oldestFirst (window : SampleWindow) : List Duration := window.samples.rotate window.place

def recordAll (window : SampleWindow) (samples : List Duration) : SampleWindow :=
  samples.foldl record window

section Record

variable (window : SampleWindow) (sample : Duration)

@[simp]
theorem length_samples_record :
    (window.record sample).samples.length = window.samples.length :=
  List.length_set

theorem place_record_lt (hplace : window.place < window.samples.length) :
    (window.record sample).place < (window.record sample).samples.length := by
  rw [length_samples_record]
  exact Nat.mod_lt _ (Nat.zero_lt_of_lt hplace)

/-- A sample comes last, and the oldest one goes. -/
theorem oldestFirst_record (hplace : window.place < window.samples.length) :
    (window.record sample).oldestFirst = window.oldestFirst.tail ++ [sample] := by
  have hlength : (window.samples.set window.place sample).length = window.samples.length :=
    List.length_set
  calc
    (window.record sample).oldestFirst =
        (window.samples.set window.place sample).rotate (window.place + 1) := by
      rw [oldestFirst, record, ← hlength, List.rotate_mod]
    _ = window.samples.drop (window.place + 1) ++
        (window.samples.take window.place ++ [sample]) := by
      rw [List.rotate_eq_drop_append_take (by rwa [hlength]),
        List.drop_set_of_lt (Nat.lt_succ_self _),
        List.take_succ_eq_append_getElem (by rwa [hlength]), List.getElem_set_self,
        List.take_set_of_le (Nat.le_refl _)]
    _ = window.oldestFirst.tail ++ [sample] := by
      rw [oldestFirst, List.rotate_eq_drop_append_take (Nat.le_of_lt hplace),
        List.drop_eq_getElem_cons hplace, List.cons_append, List.tail_cons, List.append_assoc]

end Record

theorem oldestFirst_filled (size : Nat) (sample : Duration) :
    (filled size sample).oldestFirst = List.replicate size sample :=
  List.rotate_zero _

theorem oldestFirst_perm (window : SampleWindow) : window.oldestFirst.Perm window.samples :=
  List.rotate_perm _ _

section RecordAll

variable {window : SampleWindow} (samples : List Duration)

@[simp]
theorem length_samples_recordAll :
    (window.recordAll samples).samples.length = window.samples.length := by
  induction samples generalizing window with
  | nil => rfl
  | cons sample samples ih => exact ih.trans (length_samples_record window sample)

theorem place_recordAll_lt (hplace : window.place < window.samples.length) :
    (window.recordAll samples).place < (window.recordAll samples).samples.length := by
  induction samples generalizing window with
  | nil => exact hplace
  | cons sample samples ih => exact ih (place_record_lt window sample hplace)

/-- As many samples go as come. -/
theorem oldestFirst_recordAll (hplace : window.place < window.samples.length) :
    (window.recordAll samples).oldestFirst =
      (window.oldestFirst ++ samples).drop samples.length := by
  induction samples generalizing window with
  | nil => exact (List.append_nil _).symm
  | cons sample samples ih =>
      have hne : window.oldestFirst ≠ [] := by
        intro hnil
        rw [oldestFirst, List.rotate_eq_nil_iff] at hnil
        rw [hnil] at hplace
        exact Nat.not_lt_zero _ hplace
      obtain ⟨oldest, others, hothers⟩ := List.exists_cons_of_ne_nil hne
      calc
        (window.recordAll (sample :: samples)).oldestFirst =
            ((window.record sample).oldestFirst ++ samples).drop samples.length :=
          ih (place_record_lt window sample hplace)
        _ = (window.oldestFirst ++ sample :: samples).drop (sample :: samples).length := by
          rw [oldestFirst_record window sample hplace, hothers, List.tail_cons, List.append_assoc]
          rfl

theorem last_recordAll :
    (window.recordAll samples).last = samples.getLast?.getD window.last := by
  induction samples generalizing window with
  | nil => rfl
  | cons sample samples ih =>
      rw [List.getLast?_cons, Option.getD_some]
      exact ih

end RecordAll

/-- The latest samples are kept, and copies of the first one as long as there is room. -/
theorem oldestFirst_recordAll_filled {size : Nat} (hsize : 0 < size) (first : Duration)
    (later : List Duration) :
    ((filled size first).recordAll later).oldestFirst =
      List.replicate (size - min later.length size) first ++
        later.drop (later.length - min later.length size) := by
  have hplace : (filled size first).place < (filled size first).samples.length := by
    rw [filled, List.length_replicate]
    exact hsize
  rw [oldestFirst_recordAll later hplace, oldestFirst_filled, List.drop_append, List.drop_replicate,
    List.length_replicate]
  congr 2 <;> omega

end SampleWindow

end TickWaves
