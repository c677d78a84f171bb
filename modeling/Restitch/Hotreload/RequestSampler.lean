import Restitch.Reqlog.Record
import Restitch.Semantics.Transition
import Restitch.Std.GoTime

/-!
# Samples of requests (`hotreload/requests.go`)

`Record` and the critical sections of `Push`. A push takes the queue, sends it behind the
samples that the last failed push left, and gets the lock again when the send is over. Slices
share arrays: where the array of the pending samples has room, `append` puts the new ones
behind them, and a push that is not sent yet may hold the same array.
-/

namespace Restitch.Hotreload

open Restitch.Reqlog Restitch.Semantics Restitch.Std.GoTime

/-- `successesPerMinute`. -/
def successesPerMinute : Nat := 60

/-- `maxQueuedSamples`. -/
def maxQueuedSamples : Nat := 1000

/-- A record with the number of its `Record` call, which no code reads. -/
structure Sample where
  number : Nat
  record : Record

/-- `failed` in `RequestSampler.Record`. -/
def Sample.failed (sample : Sample) : Bool :=
  500 ≤ sample.record.status || sample.record.isPartial

/-- The fields of a `RequestSampler` that `Record` reads, and its `Dropped` counter. -/
structure RequestSampler where
  queue : List Sample
  minute : Option Nat
  successes : Nat
  dropped : Nat

def newRequestSampler : RequestSampler := ⟨[], none, 0, 0⟩

/-- What becomes of a record. -/
inductive RecordOutcome where
  /-- A successful one beyond the cap of its minute. -/
  | unsampled
  /-- The queue is full. -/
  | dropped
  | queued
deriving DecidableEq

/-- The end of `RequestSampler.Record`. -/
def RequestSampler.enqueue (sampler : RequestSampler) (sample : Sample) :
    RequestSampler × RecordOutcome :=
  if maxQueuedSamples ≤ sampler.queue.length then
    ({ sampler with dropped := sampler.dropped + 1 }, .dropped)
  else ({ sampler with queue := sampler.queue ++ [sample] }, .queued)

/-- Count the successes of a minute anew if it is not the last one. -/
def RequestSampler.inMinute (sampler : RequestSampler) (minute : Nat) : RequestSampler :=
  if sampler.minute = some minute then sampler
  else { sampler with minute := some minute, successes := 0 }

/-- `RequestSampler.Record`. -/
def RequestSampler.record (sampler : RequestSampler) (sample : Sample) :
    RequestSampler × RecordOutcome :=
  if sample.failed then sampler.enqueue sample
  else
    let sampler := sampler.inMinute (minuteOf sample.record.time)
    if successesPerMinute ≤ sampler.successes then (sampler, .unsampled)
    else { sampler with successes := sampler.successes + 1 }.enqueue sample

/-- `fresh := s.queue; s.queue = nil` in `Push`. -/
def RequestSampler.takeQueue (sampler : RequestSampler) : List Sample × RequestSampler :=
  (sampler.queue, { sampler with queue := [] })

section Record

variable (sampler : RequestSampler) (sample : Sample)

/-- A failed record never meets the cap. -/
theorem RequestSampler.record_failed (failed : sample.failed = true) :
    sampler.record sample = sampler.enqueue sample := by
  rw [RequestSampler.record, if_pos failed]

/-- What one call of `Record` can do to queue and counter. -/
theorem RequestSampler.record_cases :
    ((sampler.record sample).2 = .unsampled ∧ (sampler.record sample).1.queue = sampler.queue ∧
        (sampler.record sample).1.dropped = sampler.dropped) ∨
      ((sampler.record sample).2 = .dropped ∧ maxQueuedSamples ≤ sampler.queue.length ∧
        (sampler.record sample).1.queue = sampler.queue ∧
        (sampler.record sample).1.dropped = sampler.dropped + 1) ∨
      ((sampler.record sample).2 = .queued ∧ sampler.queue.length < maxQueuedSamples ∧
        (sampler.record sample).1.queue = sampler.queue ++ [sample] ∧
        (sampler.record sample).1.dropped = sampler.dropped) := by
  have enqueued : ∀ other : RequestSampler, other.queue = sampler.queue →
      other.dropped = sampler.dropped →
      ((other.enqueue sample).2 = .dropped ∧ maxQueuedSamples ≤ sampler.queue.length ∧
          (other.enqueue sample).1.queue = sampler.queue ∧
          (other.enqueue sample).1.dropped = sampler.dropped + 1) ∨
        ((other.enqueue sample).2 = .queued ∧ sampler.queue.length < maxQueuedSamples ∧
          (other.enqueue sample).1.queue = sampler.queue ++ [sample] ∧
          (other.enqueue sample).1.dropped = sampler.dropped) := by
    intro other sameQueue sameDropped
    rw [RequestSampler.enqueue]
    by_cases full : maxQueuedSamples ≤ other.queue.length
    · rw [if_pos full]
      exact .inl ⟨rfl, sameQueue ▸ full, sameQueue, congrArg (· + 1) sameDropped⟩
    · rw [if_neg full]
      refine .inr ⟨rfl, ?_, congrArg (· ++ [sample]) sameQueue, sameDropped⟩
      rw [← sameQueue]
      exact Nat.lt_of_not_le full
  have counted : (sampler.inMinute (minuteOf sample.record.time)).queue = sampler.queue ∧
      (sampler.inMinute (minuteOf sample.record.time)).dropped = sampler.dropped := by
    rw [RequestSampler.inMinute]
    split <;> exact ⟨rfl, rfl⟩
  rw [RequestSampler.record]
  split
  · exact .inr (enqueued sampler rfl rfl)
  · dsimp only
    split
    · exact .inl ⟨rfl, counted⟩
    · exact .inr (enqueued _ counted.1 counted.2)

end Record

section Push

/-- A `Push` between its critical sections. `started` numbers the pushes. `batch` is what the
array of its batch holds, and `shared` says whether that is the array of the pending samples
it took. `body` is what it marshalled. -/
structure Push where
  started : Nat
  taken : List Sample
  fresh : List Sample
  batch : List Sample
  shared : Option Nat
  body : Option (List Sample)

/-- The sampler and its pushes in progress. The array of the pending samples is named by the
push that left it. The last four fields are read by no code: the calls of `Record` and the
pushes so far, the records that were sampled, and where they went. -/
structure SamplerState extends RequestSampler where
  pending : List Sample
  array : Option Nat
  pushes : List Push
  calls : Nat
  started : Nat
  sampled : List Sample
  delivered : List (List Sample)
  lost : List Sample

inductive SamplerEvent where
  | record (record : Record)
  /-- The first critical section of a push. `room` says whether the array of the pending
  samples has room for the new ones. -/
  | start (room : Bool)
  /-- The batch of a push is marshalled. -/
  | marshal (index : Nat)
  /-- The send of a push is over; its last critical section. -/
  | finish (index : Nat) (sent : Bool)

/-- What a batch holds after `append` wrote to the array that it may share. -/
def Push.overwritten (push : Push) (array : Option Nat) (written : List Sample) : Push :=
  if push.shared = array ∧ array.isSome then
    { push with batch := (written ++ push.batch.drop written.length).take push.batch.length }
  else push

def samplerStep (state : SamplerState) : SamplerEvent → Option SamplerState
  | .record record =>
      let sample : Sample := ⟨state.calls, record⟩
      let (sampler, outcome) := state.toRequestSampler.record sample
      let state := { state with toRequestSampler := sampler, calls := state.calls + 1 }
      match outcome with
      | .unsampled => some state
      | .dropped => some { state with
          sampled := state.sampled ++ [sample]
          lost := state.lost ++ [sample] }
      | .queued => some { state with sampled := state.sampled ++ [sample] }
  | .start room =>
      let (fresh, sampler) := state.takeQueue
      let batch := state.pending ++ fresh
      let state := { state with toRequestSampler := sampler, started := state.started + 1 }
      if batch = [] then some state
      else if room ∧ state.array.isSome then some { state with
        pushes := state.pushes.map (Push.overwritten · state.array batch) ++
          [⟨state.started, state.pending, fresh, batch, state.array, none⟩] }
      else some { state with
        pushes := state.pushes ++ [⟨state.started, state.pending, fresh, batch, none, none⟩] }
  | .marshal index =>
      match state.pushes[index]? with
      | some push =>
          if push.body.isSome then none
          else some { state with
            pushes := state.pushes.set index { push with body := some push.batch } }
      | none => none
  | .finish index sent =>
      match state.pushes[index]? with
      | some push =>
          let pushes := state.pushes.eraseIdx index
          if sent then
            match push.body with
            | some body => some { state with
                pushes
                pending := []
                array := none
                delivered := state.delivered ++ [body] }
            | none => none
          else some { state with
            pushes
            dropped := state.dropped + state.pending.length
            lost := state.lost ++ state.pending
            pending := push.fresh
            array := if push.fresh = [] then none else some push.started }
      | none => none

/-- A sampler right after its start. -/
def startedSampler : SamplerState := ⟨newRequestSampler, [], none, [], 0, 0, [], [], []⟩

/-- Calls of `Record` and of `Push`, which may overlap. -/
def samplerSystem : System SamplerState SamplerEvent :=
  .ofStep (· = startedSampler) samplerStep

end Push

end Restitch.Hotreload
