import Restitch.Hotreload.RequestSampler
import Restitch.Std.Stretches

/-!
# The cap on successful samples (`hotreload/requests.go`)

The sampler remembers one minute and counts its successes from the last change of the minute.
Records of a minute that come after those of another one are counted from zero again.
-/

namespace Restitch.Hotreload

open Restitch.Reqlog Restitch.Std Restitch.Std.GoTime

/-- A call of `Record`, or a push that takes the queue. -/
inductive SamplerCall where
  | record (sample : Sample)
  | take

/-- A sampler with the records that it ever queued. -/
structure Sampling where
  sampler : RequestSampler
  queued : List Sample

def Sampling.after (sampling : Sampling) : SamplerCall → Sampling
  | .record sample =>
      let (sampler, outcome) := sampling.sampler.record sample
      ⟨sampler, if outcome = .queued then sampling.queued ++ [sample] else sampling.queued⟩
  | .take => ⟨sampling.sampler.takeQueue.2, sampling.queued⟩

/-- A new sampler after some calls. -/
def samplingAfter (calls : List SamplerCall) : Sampling :=
  calls.foldl Sampling.after ⟨newRequestSampler, []⟩

/-- The records of some calls. -/
def recordsOf (calls : List SamplerCall) : List Sample :=
  calls.filterMap fun call =>
    match call with
    | .record sample => some sample
    | .take => none

/-- The successful records of a minute. -/
def successesIn (samples : List Sample) (minute : Nat) : Nat :=
  samples.countP fun sample => !sample.failed && minuteOf sample.record.time = minute

/-- The cap holds for a sequence of records, wherever the queue is taken in between. -/
structure CapHolds (records : List Sample) : Prop where
  capped : ∀ calls, recordsOf calls = records → ∀ minute,
    successesIn (samplingAfter calls).queued minute ≤ successesPerMinute
  /-- No failed record is refused while the queue has room. -/
  failedQueued : ∀ before sample after, recordsOf (before ++ .record sample :: after) = records →
    sample.failed = true →
      (samplingAfter before).sampler.queue.length < maxQueuedSamples →
        ((samplingAfter before).sampler.record sample).2 = .queued

/-- The minutes of the successful records, in the order of the calls. -/
def successMinutes (records : List Sample) : List Nat :=
  (records.filter fun sample => !sample.failed).map fun sample => minuteOf sample.record.time

section Counting

variable {records : List Sample} {calls : List SamplerCall} {sampler : RequestSampler}
  {sample : Sample}

/-- The counter of a minute is the length of its current stretch, up to the cap. -/
def CountsStretches (records : List Sample) (sampler : RequestSampler) : Prop :=
  ∀ minute, (sampler.inMinute minute).successes =
    min (currentLength (stretches (successMinutes records)) minute) successesPerMinute

/-- A new sampler has counted nothing. -/
theorem countsStretches_new : CountsStretches [] newRequestSampler := by
  intro minute
  have fresh : newRequestSampler.minute ≠ some minute := (Option.some_ne_none minute).symm
  rw [RequestSampler.inMinute, if_neg fresh]
  rfl

/-- A success adds its minute. -/
theorem successMinutes_concat (records : List Sample) (sample : Sample) :
    successMinutes (records ++ [sample]) =
      if sample.failed then successMinutes records
      else successMinutes records ++ [minuteOf sample.record.time] := by
  rw [successMinutes, List.filter_append, List.map_append]
  cases failed : sample.failed with
  | true => simp [failed, successMinutes]
  | false => simp [failed, successMinutes]

/-- The sampler is in the minute of the record. -/
theorem minute_inMinute (sampler : RequestSampler) (minute : Nat) :
    (sampler.inMinute minute).minute = some minute := by
  rw [RequestSampler.inMinute]
  split
  · assumption
  · rfl

/-- Minute and counter after a call do not depend on the queue. -/
theorem enqueue_counter (sampler : RequestSampler) (sample : Sample) :
    (sampler.enqueue sample).1.minute = sampler.minute ∧
      (sampler.enqueue sample).1.successes = sampler.successes := by
  rw [RequestSampler.enqueue]
  split <;> exact ⟨rfl, rfl⟩

/-- What counts in a minute depends on the last minute and its count only. -/
theorem inMinute_congr {first second : RequestSampler} (sameMinute : first.minute = second.minute)
    (sameCount : first.successes = second.successes) (minute : Nat) :
    (first.inMinute minute).successes = (second.inMinute minute).successes := by
  rw [RequestSampler.inMinute, RequestSampler.inMinute, sameMinute]
  split
  · exact sameCount
  · rfl

/-- The counter after a successful record of a minute. -/
theorem inMinute_of_counted {minute count : Nat} (isMinute : sampler.minute = some minute)
    (isCount : sampler.successes = count) (other : Nat) :
    (sampler.inMinute other).successes = if minute = other then count else 0 := by
  rw [RequestSampler.inMinute]
  by_cases same : minute = other
  · rw [if_pos (same ▸ isMinute), if_pos same]
    exact isCount
  · rw [if_neg same, if_neg]
    rw [isMinute, Option.some_inj]
    exact same

/-- A record keeps the count of the current stretch. -/
theorem CountsStretches.record (counts : CountsStretches records sampler) (sample : Sample) :
    CountsStretches (records ++ [sample]) (sampler.record sample).1 := by
  intro other
  rw [successMinutes_concat]
  cases failed : sample.failed with
  | true =>
      obtain ⟨sameMinute, sameCount⟩ := enqueue_counter sampler sample
      rw [sampler.record_failed sample failed, if_pos rfl, inMinute_congr sameMinute sameCount]
      exact counts other
  | false =>
      have count := counts (minuteOf sample.record.time)
      have isMinute := minute_inMinute sampler (minuteOf sample.record.time)
      rw [if_neg (by decide), stretches_concat, currentLength_extend]
      rw [RequestSampler.record, if_neg (by simp [failed])]
      dsimp only
      by_cases full : successesPerMinute ≤
          (sampler.inMinute (minuteOf sample.record.time)).successes
      · rw [if_pos full, inMinute_of_counted isMinute rfl]
        split <;> omega
      · obtain ⟨sameMinute, sameCount⟩ := enqueue_counter { sampler.inMinute
          (minuteOf sample.record.time) with
            successes := (sampler.inMinute (minuteOf sample.record.time)).successes + 1 } sample
        rw [if_neg full, inMinute_of_counted (sameMinute.trans isMinute) sameCount]
        dsimp only
        split <;> omega

/-- A successful record is refused exactly if its stretch is over the cap. -/
theorem CountsStretches.unsampled_iff (counts : CountsStretches records sampler)
    (succeeded : sample.failed = false) :
    (sampler.record sample).2 = .unsampled ↔ ¬ currentLength (stretches (successMinutes records))
      (minuteOf sample.record.time) < successesPerMinute := by
  have count := counts (minuteOf sample.record.time)
  rw [RequestSampler.record, if_neg (by simp [succeeded])]
  dsimp only
  by_cases full : successesPerMinute ≤ (sampler.inMinute (minuteOf sample.record.time)).successes
  · rw [if_pos full]
    exact iff_of_true rfl (by omega)
  · rw [if_neg full]
    refine iff_of_false ?_ (by omega)
    rw [RequestSampler.enqueue]
    split <;> simp

end Counting

section Cap

variable {records : List Sample}

/-- The last call comes last. -/
theorem samplingAfter_concat (calls : List SamplerCall) (call : SamplerCall) :
    samplingAfter (calls ++ [call]) = (samplingAfter calls).after call := by
  rw [samplingAfter, List.foldl_append]
  rfl

/-- The last record comes last. -/
theorem recordsOf_concat (calls : List SamplerCall) (sample : Sample) :
    recordsOf (calls ++ [.record sample]) = recordsOf calls ++ [sample] := by
  rw [recordsOf, List.filterMap_append]
  rfl

/-- Taking the queue is no record. -/
theorem recordsOf_take (calls : List SamplerCall) :
    recordsOf (calls ++ [.take]) = recordsOf calls := by
  rw [recordsOf, List.filterMap_append]
  exact List.append_nil _

/-- After all calls the sampler has counted the current stretch. -/
theorem countsStretches (calls : List SamplerCall) :
    CountsStretches (recordsOf calls) (samplingAfter calls).sampler := by
  induction calls using List.reverseRecOn with
  | nil => exact countsStretches_new
  | append_singleton calls call ih =>
      rw [samplingAfter_concat]
      cases call with
      | record sample =>
          rw [recordsOf_concat]
          exact ih.record sample
      | take =>
          rw [recordsOf_take]
          intro minute
          rw [← ih minute]
          refine inMinute_congr ?_ ?_ minute <;> rfl

/-- A success is counted in its own minute. -/
theorem successesIn_concat (samples : List Sample) (sample : Sample) (minute : Nat) :
    successesIn (samples ++ [sample]) minute = successesIn samples minute +
      if sample.failed = false ∧ minuteOf sample.record.time = minute then 1 else 0 := by
  rw [successesIn, List.countP_append, List.countP_singleton]
  simp [successesIn]

/-- The samples that a sequence of records may give for a minute. -/
def samplesOf (records : List Sample) (minute : Nat) : Nat :=
  cappedTotal successesPerMinute (stretches (successMinutes records)) minute

/-- A success is a sample of its minute while the stretch is below the cap. -/
theorem samplesOf_concat (records : List Sample) (sample : Sample) (minute : Nat) :
    samplesOf (records ++ [sample]) minute = samplesOf records minute +
      if sample.failed = false ∧ minuteOf sample.record.time = minute ∧
        currentLength (stretches (successMinutes records)) (minuteOf sample.record.time) <
          successesPerMinute then 1 else 0 := by
  rw [samplesOf, successMinutes_concat]
  cases failed : sample.failed with
  | true => simp [samplesOf]
  | false =>
      rw [if_neg (by decide), stretches_concat, cappedTotal_extend (by decide)]
      simp [samplesOf]

/-- Every stretch gives at most as many samples as the cap. -/
theorem successesIn_le_samplesOf (calls : List SamplerCall) (minute : Nat) :
    successesIn (samplingAfter calls).queued minute ≤ samplesOf (recordsOf calls) minute := by
  induction calls using List.reverseRecOn with
  | nil => exact Nat.le_refl 0
  | append_singleton calls call ih =>
      rw [samplingAfter_concat]
      cases call with
      | take =>
          rw [recordsOf_take]
          exact ih
      | record sample =>
          rw [recordsOf_concat, samplesOf_concat, Sampling.after]
          dsimp only
          by_cases queued : ((samplingAfter calls).sampler.record sample).2 = .queued
          · rw [if_pos queued, successesIn_concat]
            by_cases counted : sample.failed = false ∧ minuteOf sample.record.time = minute
            · have below : currentLength (stretches (successMinutes (recordsOf calls)))
                  (minuteOf sample.record.time) < successesPerMinute := by
                by_contra full
                rw [((countsStretches calls).unsampled_iff counted.1).mpr full] at queued
                cases queued
              rw [if_pos counted, if_pos ⟨counted.1, counted.2, below⟩]
              omega
            · rw [if_neg counted]
              omega
          · rw [if_neg queued]
            omega

/-- Every record is taken as soon as it is queued. -/
def takenAtOnce (records : List Sample) : List SamplerCall :=
  records.flatMap fun sample => [.record sample, .take]

/-- The last record is taken last. -/
theorem takenAtOnce_concat (records : List Sample) (sample : Sample) :
    takenAtOnce (records ++ [sample]) = takenAtOnce records ++ [.record sample] ++ [.take] := by
  rw [takenAtOnce, List.flatMap_append, List.append_assoc]
  rfl

/-- Taking each record at once keeps the records. -/
theorem recordsOf_takenAtOnce (records : List Sample) :
    recordsOf (takenAtOnce records) = records := by
  induction records using List.reverseRecOn with
  | nil => rfl
  | append_singleton records sample ih =>
      rw [takenAtOnce_concat, recordsOf_take, recordsOf_concat, ih]

/-- Nothing is queued when each record is taken at once. -/
theorem queue_takenAtOnce (records : List Sample) :
    (samplingAfter (takenAtOnce records)).sampler.queue = [] := by
  induction records using List.reverseRecOn with
  | nil => rfl
  | append_singleton records sample ih =>
      rw [takenAtOnce_concat, samplingAfter_concat]
      rfl

/-- With room in the queue a record is queued unless it is over the cap. -/
theorem record_of_room {sampler : RequestSampler} {sample : Sample}
    (room : sampler.queue.length < maxQueuedSamples)
    (sampled : (sampler.record sample).2 ≠ .unsampled) :
    (sampler.record sample).2 = .queued := by
  rcases sampler.record_cases sample with ⟨unsampled, -⟩ | ⟨-, full, -⟩ | ⟨queued, -⟩
  · exact absurd unsampled sampled
  · exact absurd room (Nat.not_lt.mpr full)
  · exact queued

/-- If the queue never fills up, every stretch gives as many samples as the cap lets it. -/
theorem successesIn_takenAtOnce (records : List Sample) (minute : Nat) :
    successesIn (samplingAfter (takenAtOnce records)).queued minute =
      samplesOf records minute := by
  induction records using List.reverseRecOn with
  | nil => rfl
  | append_singleton records sample ih =>
      have counts := countsStretches (takenAtOnce records)
      have room : (samplingAfter (takenAtOnce records)).sampler.queue.length <
          maxQueuedSamples := by
        rw [queue_takenAtOnce]
        decide
      rw [recordsOf_takenAtOnce] at counts
      rw [takenAtOnce_concat, samplingAfter_concat, samplingAfter_concat, samplesOf_concat, ← ih]
      simp only [Sampling.after]
      by_cases counted : sample.failed = false ∧ minuteOf sample.record.time = minute
      · have refused := counts.unsampled_iff counted.1
        by_cases below : currentLength (stretches (successMinutes records))
            (minuteOf sample.record.time) < successesPerMinute
        · have queued := record_of_room room fun unsampled => refused.mp unsampled below
          rw [if_pos queued, successesIn_concat, if_pos counted,
            if_pos ⟨counted.1, counted.2, below⟩]
        · rw [if_neg (by simp [refused.mpr below]), if_neg fun all => below all.2.2]
          rfl
      · have uncounted : ¬ (sample.failed = false ∧ minuteOf sample.record.time = minute ∧
            currentLength (stretches (successMinutes records)) (minuteOf sample.record.time) <
              successesPerMinute) := fun all => counted ⟨all.1, all.2.1⟩
        rw [if_neg uncounted]
        split
        · rw [successesIn_concat, if_neg counted]
        · rfl

/-- A failed record is queued whenever there is room. -/
theorem record_failed_of_room {sampler : RequestSampler} {sample : Sample}
    (failed : sample.failed = true) (room : sampler.queue.length < maxQueuedSamples) :
    (sampler.record sample).2 = .queued := by
  rw [sampler.record_failed sample failed, RequestSampler.enqueue,
    if_neg (Nat.not_le.mpr room)]

/-- The cap holds for a sequence of records exactly if its stretches of each minute, counted up
to the cap, do not add up to more. -/
theorem capHolds_iff_stretches (records : List Sample) :
    CapHolds records ↔ ∀ minute,
      cappedTotal successesPerMinute (stretches (successMinutes records)) minute ≤
        successesPerMinute := by
  constructor
  · intro holds minute
    have capped := holds.capped (takenAtOnce records) (recordsOf_takenAtOnce records) minute
    rwa [successesIn_takenAtOnce] at capped
  · intro bounded
    refine ⟨?_, fun _ _ _ _ failed room => record_failed_of_room failed room⟩
    intro calls isRecords minute
    have atMost := successesIn_le_samplesOf calls minute
    rw [isRecords] at atMost
    exact atMost.trans (bounded minute)

/-- A successful record at a time. -/
def successAt (number time : Nat) : Sample :=
  ⟨number, "", "", time, "orders", "GET", "/orders", 200, 1, false, ∅, []⟩

/-- Sixty records of one minute, one of the next minute, and a late one of the first. -/
def lateRecord : List Sample :=
  (List.range 60).map (successAt · 0) ++ [successAt 60 60000, successAt 61 0]

/-- A record of an earlier minute starts the count again. -/
theorem lateRecord_not_capHolds : ¬ CapHolds lateRecord := by
  intro holds
  have capped := holds.capped (lateRecord.map .record) (by rfl) 0
  exact absurd capped (by decide +kernel)

end Cap

end Restitch.Hotreload
