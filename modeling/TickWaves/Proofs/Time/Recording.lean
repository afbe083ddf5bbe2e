import Mathlib.Data.List.DropRight
import TickWaves.Proofs.Order.Lookup
import TickWaves.Proofs.Time.Ring

/-!
# What a profiler shows

Run times are recorded for many systems in turn, and systems are forgotten in between.  What is
shown of one system depends on the samples that were recorded for it since it was last forgotten
and on nothing else: the latest one, and the average of the most recent ones, where the first
one stands in for those that are still missing (`showsRecent_performAll`).
-/

namespace TickWaves

namespace SampleWindow

def ofSamples? (size : Nat) : List Duration → Option SampleWindow
  | [] => none
  | first :: later => some ((filled size first).recordAll later)

theorem ofSamples?_concat (size : Nat) (samples : List Duration) (sample : Duration) :
    ofSamples? size (samples ++ [sample]) =
      some (match ofSamples? size samples with
        | none => filled size sample
        | some window => window.record sample) := by
  cases samples with
  | nil => rfl
  | cons first later => exact congrArg some (List.foldl_concat record _ sample later)

/-- A ring has the size that was asked for, and the next sample takes one of its places. -/
theorem place_lt_of_ofSamples? {size : Nat} (hsize : 0 < size) {samples : List Duration}
    {window : SampleWindow} (hwindow : ofSamples? size samples = some window) :
    window.samples.length = size ∧ window.place < size := by
  cases samples with
  | nil => cases hwindow
  | cons first later =>
      obtain rfl := Option.some.inj hwindow
      have hlength : (filled size first).samples.length = size := List.length_replicate
      have hstart : (filled size first).place < (filled size first).samples.length := by
        rw [hlength]
        exact hsize
      have hplace := place_recordAll_lt later hstart
      rw [length_samples_recordAll, hlength] at hplace
      exact ⟨(length_samples_recordAll later).trans hlength, hplace⟩

theorem map_last_ofSamples? (size : Nat) (samples : List Duration) :
    (ofSamples? size samples).map last = samples.getLast? := by
  cases samples with
  | nil => rfl
  | cons first later =>
      rw [List.getLast?_cons]
      exact congrArg some (last_recordAll later)

end SampleWindow

namespace Profiler

inductive Call
  | record (id : SystemId) (sample : Duration)
  | forget (id : SystemId)
  deriving DecidableEq

namespace Call

def id : Call → SystemId
  | .record id _ => id
  | .forget id => id

def sampleFor? (id : SystemId) : Call → Option Duration
  | .record other sample => if other = id then some sample else none
  | .forget _ => none

theorem sampleFor?_eq_none {call : Call} {id : SystemId} (hid : call.id ≠ id) :
    call.sampleFor? id = none := by
  cases call with
  | record other sample => exact if_neg hid
  | forget other => rfl

end Call

def perform (profiler : Profiler) : Call → Profiler
  | .record id sample => profiler.record id sample
  | .forget id => profiler.forget id

def performAll (profiler : Profiler) (calls : List Call) : Profiler := calls.foldl perform profiler

/-- The samples that were recorded for a system since it was last forgotten. -/
def samplesSince (calls : List Call) (id : SystemId) : List Duration :=
  (calls.rtakeWhile (· ≠ .forget id)).filterMap (Call.sampleFor? id)

/-- The nanoseconds that an average of `size` samples is taken of: those of the latest samples,
and those of the first one for every sample that is missing. -/
def recentTotal (size : Nat) (first : Duration) (later : List Duration) : Nat :=
  let count := min later.length size
  Duration.total (later.drop (later.length - count)) + (size - count) * first.nanoseconds

/-- What is shown of a system follows from its samples.  Its ring has `size` places, and the next
sample takes one of them. -/
structure ShowsRecent (profiler : Profiler) (size : Nat) (id : SystemId)
    (samples : List Duration) : Prop where
  size_pos : 0 < size
  place_lt : ∀ window, profiler.window? id = some window →
    window.samples.length = size ∧ window.place < size
  last?_eq : profiler.last? id = samples.getLast?
  average_of_nil : samples = [] → profiler.average id = .ok none
  average_of_cons : ∀ first later, samples = first :: later →
    profiler.average id =
      if recentTotal size first later < Duration.limit then
        .ok (some ⟨recentTotal size first later / size⟩)
      else .error .sumTooLarge

section Call

variable (profiler : Profiler) (id other : SystemId)

theorem window?_record (sample : Duration) :
    (profiler.record id sample).window? other =
      if other = id then
        some (match profiler.window? id with
          | none => SampleWindow.filled profiler.size sample
          | some window => window.record sample)
      else profiler.window? other := by
  rw [record]
  cases hwindow : profiler.window? id with
  | none =>
      rw [window?, window?, List.lookup_append]
      by_cases hother : other = id
      · subst hother
        rw [window?] at hwindow
        simp [hwindow]
      · have hne : (other == id) = false := beq_false_of_ne hother
        simp [List.lookup_cons, hne, hother]
  | some window =>
      have hlookup := lookup_map_ite profiler.windows id other fun window => window.record sample
      rw [window?, window?]
      dsimp only
      rw [hlookup]
      by_cases hother : other = id
      · subst hother
        rw [window?] at hwindow
        simp [hwindow]
      · simp [hother]

theorem last?_record (sample : Duration) :
    (profiler.record id sample).last? other =
      if other = id then some sample else profiler.last? other := by
  rw [last?, window?_record]
  split
  case isTrue =>
    cases profiler.window? id <;> rfl
  case isFalse => rfl

theorem window?_forget :
    (profiler.forget id).window? other = if other = id then none else profiler.window? other :=
  lookup_filter_ne profiler.windows id other

theorem size_perform (call : Call) : (profiler.perform call).size = profiler.size := by
  cases call with
  | record id sample =>
      rw [perform, record]
      split <;> rfl
  | forget id => rfl

end Call

theorem performAll_concat (profiler : Profiler) (calls : List Call) (call : Call) :
    profiler.performAll (calls ++ [call]) = (profiler.performAll calls).perform call :=
  List.foldl_concat perform profiler call calls

theorem size_performAll (profiler : Profiler) (calls : List Call) :
    (profiler.performAll calls).size = profiler.size := by
  induction calls generalizing profiler with
  | nil => rfl
  | cons call calls ih => exact (ih _).trans (size_perform profiler call)

section Samples

variable (calls : List Call) (call : Call) (id : SystemId)

theorem samplesSince_concat_forget : samplesSince (calls ++ [.forget id]) id = [] := by
  rw [samplesSince, List.rtakeWhile_concat_neg _ _ _ (by simp)]
  rfl

theorem samplesSince_concat_of_ne (hcall : call ≠ .forget id) :
    samplesSince (calls ++ [call]) id = samplesSince calls id ++ (call.sampleFor? id).toList := by
  rw [samplesSince, List.rtakeWhile_concat_pos _ _ _ (by simpa using hcall),
    List.filterMap_append, ← samplesSince]
  cases hsample : call.sampleFor? id <;> simp [hsample]

/-- A call about another system leaves no trace. -/
theorem samplesSince_concat_of_id_ne (hid : call.id ≠ id) :
    samplesSince (calls ++ [call]) id = samplesSince calls id := by
  have hcall : call ≠ .forget id := by
    rintro rfl
    exact hid rfl
  rw [samplesSince_concat_of_ne calls call id hcall, Call.sampleFor?_eq_none hid]
  exact List.append_nil _

/-- The samples of a system are known from the calls about it. -/
theorem samplesSince_filter :
    samplesSince (calls.filter fun call => call.id = id) id = samplesSince calls id := by
  induction calls using List.reverseRecOn with
  | nil => rfl
  | append_singleton calls call ih =>
      rw [List.filter_append]
      by_cases hid : call.id = id
      · rw [List.filter_cons_of_pos (by simpa using hid), List.filter_nil]
        by_cases hcall : call = .forget id
        · subst hcall
          rw [samplesSince_concat_forget, samplesSince_concat_forget]
        · rw [samplesSince_concat_of_ne _ call id hcall, ih,
            samplesSince_concat_of_ne _ call id hcall]
      · rw [List.filter_cons_of_neg (by simpa using hid), List.filter_nil, List.append_nil, ih,
          samplesSince_concat_of_id_ne calls call id hid]

end Samples

/-- The ring of a system is the one that its samples leave. -/
theorem window?_performAll (requested : Nat) (calls : List Call) (id : SystemId) :
    ((ofSize requested).performAll calls).window? id =
      SampleWindow.ofSamples? (ofSize requested).size (samplesSince calls id) := by
  induction calls using List.reverseRecOn with
  | nil => rfl
  | append_singleton calls call ih =>
      rw [performAll_concat]
      cases call with
      | record other sample =>
          rw [perform, window?_record, size_performAll]
          by_cases hid : id = other
          · subst hid
            rw [if_pos rfl, ih, ← SampleWindow.ofSamples?_concat,
              samplesSince_concat_of_ne calls _ id (by simp)]
            simp [Call.sampleFor?]
          · rw [if_neg hid, ih,
              samplesSince_concat_of_id_ne calls (.record other sample) id (Ne.symm hid)]
      | forget other =>
          rw [perform, window?_forget]
          by_cases hid : id = other
          · subst hid
            rw [if_pos rfl, samplesSince_concat_forget]
            rfl
          · rw [if_neg hid, ih,
              samplesSince_concat_of_id_ne calls (.forget other) id (Ne.symm hid)]

/-- The samples of a ring add up to those that its average is meant to be taken of. -/
theorem total_samples_recordAll {size : Nat} (hsize : 0 < size) (first : Duration)
    (later : List Duration) :
    Duration.total ((SampleWindow.filled size first).recordAll later).samples =
      recentTotal size first later := by
  rw [← Duration.total_eq_of_perm (SampleWindow.oldestFirst_perm _),
    SampleWindow.oldestFirst_recordAll_filled hsize, Duration.total_append,
    Duration.total_replicate, Nat.add_comm]
  rfl

section Shown

variable {profiler : Profiler} {size : Nat} {id : SystemId}

theorem average_of_window? {first : Duration} {later : List Duration} (hsize : 0 < size)
    (hwindow : profiler.window? id = some ((SampleWindow.filled size first).recordAll later)) :
    profiler.average id =
      if recentTotal size first later < Duration.limit then
        .ok (some ⟨recentTotal size first later / size⟩)
      else .error .sumTooLarge := by
  have hlength : ((SampleWindow.filled size first).recordAll later).samples.length = size := by
    rw [SampleWindow.length_samples_recordAll, SampleWindow.filled, List.length_replicate]
  rw [average, hwindow]
  dsimp only
  rw [SampleWindow.average?, Duration.sum?_eq, Duration.ofNanoseconds?, hlength,
    total_samples_recordAll hsize]
  by_cases hlimit : recentTotal size first later < Duration.limit
  · simp [hlimit, Duration.dividedBy]
  · simp [hlimit]

/-- A profiler shows the samples of a system if they left its ring. -/
theorem showsRecent_of_window? {samples : List Duration} (hsize : 0 < size)
    (hwindow : profiler.window? id = SampleWindow.ofSamples? size samples) :
    profiler.ShowsRecent size id samples := by
  constructor
  case size_pos => exact hsize
  case place_lt =>
    intro window hsome
    exact SampleWindow.place_lt_of_ofSamples? hsize (hwindow.symm.trans hsome)
  case last?_eq => rw [last?, hwindow, SampleWindow.map_last_ofSamples?]
  case average_of_nil =>
    rintro rfl
    rw [average, hwindow]
    rfl
  case average_of_cons =>
    rintro first later rfl
    exact average_of_window? hsize hwindow

end Shown

/-- After any calls, a profiler shows the samples that were recorded for a system since it was
last forgotten.  Calls about other systems can be left out. -/
theorem showsRecent_performAll (requested : Nat) (calls : List Call) (id : SystemId) :
    ((ofSize requested).performAll calls).ShowsRecent (max 1 (min requested 1024)) id
        (samplesSince calls id) ∧
      ((ofSize requested).performAll (calls.filter fun call => call.id = id)).ShowsRecent
        (max 1 (min requested 1024)) id (samplesSince calls id) := by
  have hsize : (ofSize requested).size = max 1 (min requested 1024) := by
    dsimp only [ofSize, maxSamples]
    omega
  have hpos : 0 < max 1 (min requested 1024) := by omega
  constructor
  · apply showsRecent_of_window? hpos
    rw [window?_performAll, hsize]
  · apply showsRecent_of_window? hpos
    rw [window?_performAll, hsize, samplesSince_filter]

end Profiler

end TickWaves
