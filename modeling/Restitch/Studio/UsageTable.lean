import Mathlib.Data.Rat.Defs
import Restitch.Std.GoMap
import Restitch.Std.GoTime
import Restitch.Std.KeyedParts

/-!
# Usage and instances in Studio (`internal/studio/usage.go`, `internal/studio/instances.go`)

The tables `studio_usage` and `studio_gateway_instances`, and what a push and a heartbeat
write to them. Times are milliseconds, mean latencies exact rationals; the step percentiles
of a push are stored and read by nobody.
-/

namespace Restitch.Studio

open Restitch.Std Restitch.Std.GoTime Restitch.Std.KeyedTable

/-- `admin.StepBucket`. -/
structure StepUsage where
  requests : Nat
  errors : Nat
  cacheHits : Nat
  avgMS : ℚ
  upstream : String
deriving DecidableEq

/-- `admin.Bucket`, as a gateway pushes it. -/
structure PushedBucket where
  timestamp : Nat
  composition : String
  requests : Nat
  errors : Nat
  partials : Nat
  latencyBuckets : List Nat
  steps : GoMap String StepUsage

/-- `UsagePush`. -/
structure UsagePush where
  instanceID : String
  buckets : List PushedBucket
  breakers : Option (GoMap String String)

/-- A row of `studio_usage`. -/
structure UsageRow where
  environment : String
  instanceID : String
  minute : Nat
  composition : String
  requests : Nat
  errors : Nat
  partials : Nat
  latencyBuckets : List Nat
  steps : GoMap String StepUsage

/-- `PRIMARY KEY (environment, instance_id, minute, composition)`. -/
def UsageRow.key (row : UsageRow) : String × String × Nat × String :=
  (row.environment, row.instanceID, row.minute, row.composition)

/-- `Heartbeat`. -/
structure Heartbeat where
  instanceID : String
  binaryVersion : String
  appliedVersion : Int
  lastPullError : String
deriving DecidableEq

/-- A row of `studio_gateway_instances`. -/
structure InstanceRow extends Heartbeat where
  environment : String
  firstSeenAt : Nat
  lastSeenAt : Nat
  breakers : GoMap String String

/-- `PRIMARY KEY (environment, instance_id)`. -/
def InstanceRow.key (row : InstanceRow) : String × String := (row.environment, row.instanceID)

/-- The row that one bucket of a push becomes. -/
def usageRow (environment instanceID : String) (bucket : PushedBucket) : UsageRow where
  environment := environment
  instanceID := instanceID
  minute := minuteOf bucket.timestamp
  composition := bucket.composition
  requests := bucket.requests
  errors := bucket.errors
  partials := bucket.partials
  latencyBuckets := bucket.latencyBuckets
  steps := bucket.steps

/-- One bucket of a push. -/
def storeBucket (environment instanceID : String) (rows : List UsageRow)
    (bucket : PushedBucket) : List UsageRow :=
  if bucket.requests = 0 then rows
  else upsert UsageRow.key rows (usageRow environment instanceID bucket)

/-- The rows of an environment that a push keeps. -/
def afterUsageCutoff (environment : String) (cutoff : Nat) (row : UsageRow) : Bool :=
  row.environment ≠ environment || cutoff ≤ row.minute * 60000

/-- What `storeUsage` does to `studio_usage`. -/
def storeBuckets (environment instanceID : String) (buckets : List PushedBucket) (cutoff : Nat)
    (rows : List UsageRow) : List UsageRow :=
  (buckets.foldl (storeBucket environment instanceID) rows).filter
    (afterUsageCutoff environment cutoff)

/-- What `storeUsage` does to `studio_gateway_instances`. -/
def storeBreakers (environment instanceID : String) (now : Nat) (rows : List InstanceRow) :
    Option (GoMap String String) → List InstanceRow
  | none => rows
  | some breakers =>
      let row : InstanceRow := ⟨⟨instanceID, "", 0, ""⟩, environment, now, now, breakers⟩
      upsertWith InstanceRow.key row (fun other => { other with breakers }) rows

/-- The statement of `serveHeartbeat`. -/
def storeHeartbeat (environment : String) (hb : Heartbeat) (now : Nat) (rows : List InstanceRow) :
    List InstanceRow :=
  let row : InstanceRow := ⟨hb, environment, now, now, ∅⟩
  upsertWith InstanceRow.key row (fun other => { other with
    binaryVersion := hb.binaryVersion
    appliedVersion := hb.appliedVersion
    lastPullError := hb.lastPullError
    lastSeenAt := now }) rows

section Parts

variable {part environment instanceID : String}

/-- Usage rows with one key are of one environment. -/
theorem environment_of_usageKey (first second : UsageRow) (same : first.key = second.key) :
    first.environment = second.environment :=
  congrArg Prod.fst same

/-- Instances with one key are of one environment. -/
theorem environment_of_instanceKey (first second : InstanceRow) (same : first.key = second.key) :
    first.environment = second.environment :=
  congrArg Prod.fst same

/-- Storing a bucket is storing it in its environment. -/
theorem inPart_storeBucket (bucket : PushedBucket) (rows : List UsageRow) :
    inPart UsageRow.environment part (storeBucket environment instanceID rows bucket) =
      if environment = part then
        storeBucket environment instanceID (inPart UsageRow.environment part rows) bucket
      else inPart UsageRow.environment part rows := by
  unfold storeBucket
  split
  · rw [ite_self]
  · exact inPart_upsert environment_of_usageKey _ rows

/-- A push does to an environment what it would do to its rows alone. -/
theorem inPart_storeBuckets (buckets : List PushedBucket) (cutoff : Nat) (rows : List UsageRow) :
    inPart UsageRow.environment part (storeBuckets environment instanceID buckets cutoff rows) =
      if environment = part then
        storeBuckets environment instanceID buckets cutoff (inPart UsageRow.environment part rows)
      else inPart UsageRow.environment part rows := by
  unfold storeBuckets
  split
  · rename_i here
    rw [inPart_filter, inPart_foldl]
    intro rows bucket
    rw [inPart_storeBucket, if_pos here]
  · rename_i elsewhere
    rw [inPart_filter_of_keep, inPart_foldl_of_ne]
    · intro rows bucket
      rw [inPart_storeBucket, if_neg elsewhere]
    · rintro row rfl
      simp [afterUsageCutoff, Ne.symm elsewhere]

/-- Storing breaker states is storing them in their environment. -/
theorem inPart_storeBreakers (now : Nat) (rows : List InstanceRow)
    (breakers : Option (GoMap String String)) :
    inPart InstanceRow.environment part (storeBreakers environment instanceID now rows breakers) =
      if environment = part then
        storeBreakers environment instanceID now (inPart InstanceRow.environment part rows) breakers
      else inPart InstanceRow.environment part rows := by
  cases breakers with
  | none => rw [storeBreakers, storeBreakers, ite_self]
  | some breakers =>
      dsimp only [storeBreakers]
      exact inPart_upsertWith environment_of_instanceKey (by simp) _ rows

/-- Storing a heartbeat is storing it in its environment. -/
theorem inPart_storeHeartbeat (hb : Heartbeat) (now : Nat) (rows : List InstanceRow) :
    inPart InstanceRow.environment part (storeHeartbeat environment hb now rows) =
      if environment = part then
        storeHeartbeat environment hb now (inPart InstanceRow.environment part rows)
      else inPart InstanceRow.environment part rows := by
  dsimp only [storeHeartbeat]
  exact inPart_upsertWith environment_of_instanceKey (by simp) _ rows

end Parts

end Restitch.Studio
