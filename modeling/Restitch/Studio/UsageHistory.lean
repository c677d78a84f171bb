import Restitch.Std.TableHistory
import Restitch.Studio.GatewayApi

/-!
# What the usage table remembers (`storeUsage` of `internal/studio/usage.go`)

A gateway whose push failed sends the same minutes again, and Studio may have stored them
already. After any run the table holds, of every minute of an instance, the row of the last
push that was stored, unless a later push of the environment deleted it for its age.
-/

namespace Restitch.Studio

open Restitch.Semantics Restitch.Std Restitch.Std.KeyedTable

variable {Digest : Type} [DecidableEq Digest] {parseHost : List Char → Option (List Char)}
  {sha256 : String → Digest}

/-- The statements on `studio_usage` of one push. -/
structure StoredPush where
  environment : String
  push : UsagePush
  cutoff : Nat

/-- The statements, in order. -/
def StoredPush.writes (stored : StoredPush) : List (TableWrite UsageRow) :=
  ((stored.push.buckets.filter (·.requests ≠ 0)).map fun bucket =>
    .put (usageRow stored.environment stored.push.instanceID bucket)) ++
    [.keep (afterUsageCutoff stored.environment stored.cutoff)]

/-- The push that a statement of the gateway API stores, if it does. -/
def storedBy (state : GatewayApi Digest) : GatewayEvent → List StoredPush
  | .serve call now =>
      match state.calls.find? (·.id = call) with
      | some ⟨_, environment, _, .usage push⟩ =>
          if push.instanceID = "" then []
          else
            match settingsOf state.environments environment with
            | none => []
            | some settings =>
                [⟨environment, push, cutoffAt now settings.usageRetentionDays⟩]
      | _ => []
  | _ => []

/-- The gateway API with the pushes it has stored, which no code reads. -/
structure LoggedApi (Digest : Type) where
  api : GatewayApi Digest
  log : List StoredPush

variable (parseHost sha256) in
def loggedStep (state : LoggedApi Digest) (event : GatewayEvent) : Option (LoggedApi Digest) :=
  (gatewayStep parseHost sha256 state.api event).map fun next =>
    ⟨next, state.log ++ storedBy state.api event⟩

variable (parseHost sha256) in
def loggedApi : System (LoggedApi Digest) GatewayEvent :=
  .ofStep (· = ⟨emptyStudio, []⟩) (loggedStep parseHost sha256)

/-- `storeUsage` runs its statements. -/
theorem storeBuckets_eq (stored : StoredPush) (rows : List UsageRow) :
    storeBuckets stored.environment stored.push.instanceID stored.push.buckets stored.cutoff rows =
      stored.writes.foldl (TableWrite.run UsageRow.key) rows := by
  have body : storeBucket stored.environment stored.push.instanceID = fun rows bucket =>
      if decide (bucket.requests ≠ 0) = true then
        TableWrite.run UsageRow.key rows
          (.put (usageRow stored.environment stored.push.instanceID bucket))
      else rows := by
    funext rows bucket
    unfold storeBucket
    split
    · rename_i unused
      simp [unused]
    · rename_i used
      simp [used, TableWrite.run]
  rw [StoredPush.writes, List.foldl_concat, List.foldl_map, List.foldl_filter, storeBuckets, body]
  rfl

/-- A statement of the API leaves the usage alone, or stores one push. -/
theorem usage_of_step {state next : GatewayApi Digest} {event : GatewayEvent}
    (stepped : gatewayStep parseHost sha256 state event = some next) :
    next.usage = ((storedBy state event).flatMap (·.writes)).foldl (TableWrite.run UsageRow.key)
      state.usage := by
  cases event with
  | createEnvironment | changeSettings | revokeToken | insertVersion =>
      cases stepped
      rfl
  | issueToken =>
      simp only [gatewayStep] at stepped
      split at stepped <;> cases stepped <;> rfl
  | authenticate =>
      simp only [gatewayStep] at stepped
      split at stepped
      · cases stepped
      split at stepped <;> cases stepped <;> rfl
  | recordUse =>
      simp only [gatewayStep] at stepped
      split at stepped <;> cases stepped <;> rfl
  | serve call now =>
      simp only [gatewayStep] at stepped
      split at stepped
      · rename_i missing
        cases stepped
        rw [storedBy, missing]
        rfl
      · rename_i found isCall
        obtain ⟨id, environment, digest, request⟩ := found
        cases stepped
        rw [storedBy, isCall]
        cases request with
        | artifact ifNoneMatch number =>
            rcases number with - | - | number <;> simp only [GatewayApi.handle]
            · rfl
            · rfl
            · split <;> rfl
        | heartbeat hb =>
            simp only [GatewayApi.handle]
            split <;> rfl
        | usage push =>
            simp only [GatewayApi.handle]
            split
            · rfl
            cases settingsOf state.environments environment with
            | none => rfl
            | some settings =>
                dsimp only
                rw [List.flatMap_singleton, ← storeBuckets_eq]
        | requests push =>
            simp only [GatewayApi.handle]
            split
            · rfl
            split <;> rfl

/-- The table is what the statements of the stored pushes made of an empty one. -/
theorem usage_of_log {state : LoggedApi Digest}
    (reached : (loggedApi parseHost sha256).Reachable state) :
    state.api.usage =
      (state.log.flatMap (·.writes)).foldl (TableWrite.run UsageRow.key) [] := by
  refine reached.induction (fun state => state.api.usage =
    (state.log.flatMap (·.writes)).foldl (TableWrite.run UsageRow.key) []) ?_ ?_
  · rintro start rfl
    rfl
  · intro before event after _ stored stepped
    obtain ⟨next, moved, rfl⟩ := Option.map_eq_some_iff.mp stepped
    rw [usage_of_step moved, stored, List.flatMap_append, List.foldl_append]

/-- A push sent again, with a cutoff that is not earlier, counts once. -/
theorem mem_storeBuckets_again (environment instanceID : String) (buckets : List PushedBucket)
    {first second : Nat} (later : first ≤ second) (rows : List UsageRow) (row : UsageRow) :
    row ∈ storeBuckets environment instanceID buckets second
        (storeBuckets environment instanceID buckets first rows) ↔
      row ∈ storeBuckets environment instanceID buckets second rows := by
  have one := storeBuckets_eq ⟨environment, ⟨instanceID, buckets, none⟩, first⟩
  have two := storeBuckets_eq ⟨environment, ⟨instanceID, buckets, none⟩, second⟩
  dsimp only at one two
  have kept : afterUsageCutoff environment second row = true →
      afterUsageCutoff environment first row = true := by
    simp only [afterUsageCutoff, Bool.or_eq_true, decide_eq_true_eq]
    exact Or.imp_right later.trans
  rw [two, two, one, mem_foldl_run, mem_foldl_run, mem_foldl_run]
  simp only [StoredPush.writes, lastWritten_concat, reduceCtorEq, false_or, List.mem_append,
    List.mem_singleton, or_imp, forall_and, forall_eq, TableWrite.Spares]
  tauto

/-- In every run the usage table has, of each minute of an instance, the row that was stored
last, unless a push of the environment has deleted it since. A push that is stored twice
leaves the rows that it leaves when it is stored once. -/
theorem usage_history (parseHost : List Char → Option (List Char)) (sha256 : String → Digest)
    (state : LoggedApi Digest) (reached : (loggedApi parseHost sha256).Reachable state) :
    Unique UsageRow.key state.api.usage ∧
      (∀ row, row ∈ state.api.usage ↔
        LastWritten UsageRow.key (state.log.flatMap (·.writes)) row) ∧
      ∀ environment instanceID buckets first second, first ≤ second → ∀ row,
        row ∈ storeBuckets environment instanceID buckets second
            (storeBuckets environment instanceID buckets first state.api.usage) ↔
          row ∈ storeBuckets environment instanceID buckets second state.api.usage := by
  have held := usage_of_log reached
  refine ⟨?_, ?_, fun environment instanceID buckets first second later row =>
    mem_storeBuckets_again environment instanceID buckets later _ row⟩
  · rw [held]
    exact Unique.foldl_run .nil _
  · intro row
    rw [held, mem_foldl_run]
    simp

/-- A push whose answer was lost comes again with the next minute. -/
def lostAnswer : List GatewayEvent :=
  [.createEnvironment "prod", .issueToken "prod" "1" "rgt_p",
   .authenticate 0 "Bearer rgt_p" (.usage ⟨"gw", [⟨0, "", 2, 0, 0, [2], ∅⟩], none⟩),
   .serve 0 60000,
   .authenticate 1 "Bearer rgt_p" (.usage ⟨"gw", [⟨0, "", 2, 0, 0, [2], ∅⟩,
     ⟨60000, "", 3, 0, 0, [3], ∅⟩], none⟩),
   .serve 1 120000]

/-- A push that is sent again because its answer was lost is stored once. -/
theorem usage_history_of_lost_answer :
    ∃ state : LoggedApi String,
      System.replay (loggedStep (fun _ => none) id) ⟨emptyStudio, []⟩ lostAnswer = some state ∧
      state.api.usage.map (·.requests) = [2, 3] ∧
      Unique UsageRow.key state.api.usage := by
  let state := (System.replay (loggedStep (fun _ => none) id) ⟨emptyStudio, []⟩ lostAnswer).get
    (by decide)
  have ends : System.replay (loggedStep (fun _ => none) id) ⟨emptyStudio, []⟩ lostAnswer =
      some state := (Option.some_get _).symm
  exact ⟨state, ends, by decide, (usage_history (fun _ => none) id state
    (System.reachable_of_replay lostAnswer (.initial rfl) ends)).1⟩

end Restitch.Studio
