import Restitch.Admin.Accumulator
import Restitch.Semantics.Transition
import Restitch.Std.KeyedTable

/-!
# Usage from one gateway to Studio (`hotreload/usage.go`, `studio/usage.go`)

The pusher of one instance drains the accumulator into the rows of that instance in one
environment. A push may be stored and acknowledged, refused, or stored without the gateway
learning of it. Requests may be recorded while a push is under way. Retention is left out.
-/

namespace Restitch.Hotreload

open Restitch.Admin Restitch.Semantics Restitch.Std Restitch.Std.GoTime

/-- The key of a row within `(environment, instance_id)`: minute and composition. -/
def usageKey (row : Bucket) : Nat × String := (row.minute, row.composition)

/-- The buckets that `storeUsage` does not skip. -/
def countedBuckets (buckets : List Bucket) : List Bucket :=
  buckets.filter fun bucket => bucket.counts.requests ≠ 0

/-- `storeUsage`: the newer row of a minute replaces the older one. -/
def storeUsage (rows buckets : List Bucket) : List Bucket :=
  (countedBuckets buckets).foldl (KeyedTable.upsert usageKey) rows

inductive PushOutcome where
  | acknowledged
  | refused
  /-- Stored, but `SendUsage` returns an error. -/
  | ackLost
deriving DecidableEq

/-- The gateway and its rows in Studio. The last four fields are read by no code: the
compositions of all `Record` calls and of those before the last push, whether that push was
acknowledged, and the minutes of earlier windows with requests. -/
structure UsageState where
  now : Nat
  acc : Accumulator
  /-- What the last push could not deliver. -/
  pending : List Bucket
  /-- The buckets of the last flush, while they are sent. -/
  sending : Option (List Bucket)
  dropped : Nat
  rows : List Bucket
  recorded : List String
  pushed : List String
  acknowledged : Bool
  usedMinutes : List Nat

inductive UsageEvent where
  | advance (milliseconds : Nat)
  | record (sample : RequestSample)
  /-- `Push` flushes the accumulator and starts to send. -/
  | push
  /-- The send ends. -/
  | sent (outcome : PushOutcome)

/-- The rows after a send. -/
def rowsAfter (rows buckets : List Bucket) : PushOutcome → List Bucket
  | .refused => rows
  | .acknowledged | .ackLost => storeUsage rows buckets

def usageStep (state : UsageState) : UsageEvent → Option UsageState
  | .advance milliseconds => some { state with now := state.now + milliseconds }
  | .record sample => some { state with
      acc := state.acc.record sample
      recorded := state.recorded ++ [sample.composition] }
  | .push =>
      match state.sending with
      | some _ => none
      | none => some { state with
          acc := newAccumulator state.now
          sending := some state.acc.flush
          pushed := state.recorded
          acknowledged := false
          usedMinutes := if state.acc.global.requests = 0 then state.usedMinutes
            else minuteOf state.acc.start :: state.usedMinutes }
  | .sent outcome =>
      state.sending.map fun fresh =>
        let rows := rowsAfter state.rows (state.pending ++ fresh) outcome
        if outcome = .acknowledged then
          { state with rows, sending := none, pending := [], acknowledged := true }
        else
          { state with
            rows
            sending := none
            pending := fresh
            dropped := state.dropped + state.pending.length }

/-- A gateway right after its start. -/
def startedGateway (now : Nat) : UsageState :=
  ⟨now, newAccumulator now, [], none, 0, [], [], [], false, []⟩

/-- One gateway, its requests and its pushes one after another. -/
def usageSystem : System UsageState UsageEvent :=
  .ofStep (fun state => ∃ now, state = startedGateway now) usageStep

/-- The requests in the rows that meet a condition. -/
def requestsWhere (keep : Bucket → Bool) (rows : List Bucket) : Nat :=
  ((rows.filter keep).map fun row => row.counts.requests).sum

/-- The requests of a composition, over all minutes. -/
def requestsOf (composition : String) (rows : List Bucket) : Nat :=
  requestsWhere (fun row => row.composition = composition) rows

/-- In every minute, the gateway-wide row counts what the rows of the compositions do. -/
def GlobalRowsAdd (rows : List Bucket) : Prop :=
  ∀ minute,
    requestsWhere (fun row => row.minute = minute && row.composition = "") rows =
      requestsWhere (fun row => row.minute = minute && row.composition ≠ "") rows

/-- A request is recorded only in a window that was opened in another minute than every
earlier one with requests, and for a composition with a name. -/
def InOwnMinute (state : UsageState) : UsageEvent → Prop
  | .record sample =>
      minuteOf state.acc.start ∉ state.usedMinutes ∧ sample.composition ≠ ""
  | _ => True

end Restitch.Hotreload
