import Restitch.Std.GoMap
import Restitch.Std.GoTime

/-!
# Usage of one gateway (`internal/admin/accumulator.go`)

Requests are counted in a window, for the whole gateway and for each composition. A flush
labels the window with the minute in which it was opened.
-/

namespace Restitch.Admin

open Restitch.Std Restitch.Std.GoTime

/-- `StepSample`. -/
structure StepSample where
  name : String
  upstream : String
  duration : Nat
  isError : Bool
  cached : Bool

/-- `accStep`. -/
structure AccStep where
  latencies : List Nat
  errors : Nat
  cacheHits : Nat
  upstream : String

/-- `accBucket`. -/
structure AccBucket where
  requests : Nat
  errors : Nat
  partials : Nat
  latencies : List Nat
  steps : GoMap String AccStep

/-- `newAccBucket`. -/
def newAccBucket : AccBucket := ⟨0, 0, 0, [], ∅⟩

/-- The arguments of one call of `Record`. -/
structure RequestSample where
  composition : String
  duration : Nat
  isError : Bool
  isPartial : Bool
  steps : List StepSample

/-- One step of `recordBucket`. -/
def recordStep (steps : GoMap String AccStep) (sample : StepSample) : GoMap String AccStep :=
  let step := steps.getD sample.name ⟨[], 0, 0, sample.upstream⟩
  steps.insert sample.name { step with
    latencies := step.latencies ++ [sample.duration]
    errors := step.errors + sample.isError.toNat
    cacheHits := step.cacheHits + sample.cached.toNat }

/-- `recordBucket`. -/
def recordBucket (bucket : AccBucket) (sample : RequestSample) : AccBucket where
  requests := bucket.requests + 1
  errors := bucket.errors + sample.isError.toNat
  partials := bucket.partials + sample.isPartial.toNat
  latencies := bucket.latencies ++ [sample.duration]
  steps := sample.steps.foldl recordStep bucket.steps

/-- `Accumulator`. -/
structure Accumulator where
  global : AccBucket
  perComp : GoMap String AccBucket
  /-- When the current window opened. -/
  start : Nat

/-- `NewAccumulator`. -/
def newAccumulator (now : Nat) : Accumulator := ⟨newAccBucket, ∅, now⟩

/-- `Record`. -/
def Accumulator.record (acc : Accumulator) (sample : RequestSample) : Accumulator :=
  { acc with
    global := recordBucket acc.global sample
    perComp := acc.perComp.insert sample.composition
      (recordBucket (acc.perComp.getD sample.composition newAccBucket) sample) }

/-- `Bucket`. The percentiles and histograms that `toBucket` computes are functions of the
latencies, which are kept instead. -/
structure Bucket where
  minute : Nat
  composition : String
  counts : AccBucket

/-- `Flush`: the buckets of the window, the gateway-wide one first. -/
def Accumulator.flush (acc : Accumulator) : List Bucket :=
  ⟨minuteOf acc.start, "", acc.global⟩ ::
    acc.perComp.entries.map fun entry => ⟨minuteOf acc.start, entry.1, entry.2⟩

/-- The requests of a composition in the current window. -/
def Accumulator.requestsFor (acc : Accumulator) (composition : String) : Nat :=
  (acc.perComp.getD composition newAccBucket).requests

/-- The requests of all compositions in the current window. -/
def Accumulator.compRequests (acc : Accumulator) : Nat :=
  (acc.perComp.entries.map fun entry => entry.2.requests).sum

section Record

variable (acc : Accumulator) (sample : RequestSample)

@[simp] theorem recordBucket_requests (bucket : AccBucket) :
    (recordBucket bucket sample).requests = bucket.requests + 1 := rfl

@[simp] theorem Accumulator.record_start : (acc.record sample).start = acc.start := rfl

@[simp] theorem Accumulator.record_global :
    (acc.record sample).global.requests = acc.global.requests + 1 := rfl

/-- A request is counted once for its composition and not for the others. -/
theorem Accumulator.record_requestsFor (composition : String) :
    (acc.record sample).requestsFor composition =
      acc.requestsFor composition + if sample.composition = composition then 1 else 0 := by
  unfold requestsFor record GoMap.getD
  by_cases same : sample.composition = composition
  · subst same
    rw [AList.lookup_insert, if_pos rfl]
    rfl
  · rw [AList.lookup_insert_ne (Ne.symm same), if_neg same]
    rfl

/-- A request is counted once among those of all compositions. -/
theorem Accumulator.record_compRequests :
    (acc.record sample).compRequests = acc.compRequests + 1 := by
  have inserted := GoMap.sum_insert AccBucket.requests acc.perComp sample.composition
    (recordBucket (acc.perComp.getD sample.composition newAccBucket) sample)
  have old : ((acc.perComp.lookup sample.composition).map AccBucket.requests).getD 0 =
      (acc.perComp.getD sample.composition newAccBucket).requests := by
    unfold GoMap.getD
    cases acc.perComp.lookup sample.composition <;> rfl
  rw [old, recordBucket_requests, ← Nat.add_assoc, Nat.add_right_comm] at inserted
  exact Nat.add_right_cancel inserted

end Record

end Restitch.Admin
