import Mathlib.Tactic.FieldSimp
import Restitch.Std.Accumulate
import Restitch.Studio.GatewayIsolation
import Restitch.Studio.UsagePercentile

/-!
# The usage page (`internal/studio/usage.go`)

Studio adds up the rows of all instances of an environment: minute by minute, in a minute
step by step, and over the whole window upstream by upstream. Rows of one minute come in any
order, as do the entries of a map. The totals are sums over the rows, and the sums over the
upstreams and over the steps of the minutes agree.
-/

namespace Restitch.Studio

open Restitch.Semantics Restitch.Std Restitch.Std.GoMap Restitch.Std.KeyedTable

/-- `usageBucket`; the timestamp is a minute. -/
structure UsageBucket where
  timestamp : Nat
  requests : Nat
  errors : Nat
  partials : Nat
  latencyBuckets : List Nat
  p95MS : ℚ
  steps : GoMap String StepUsage

/-- `usageUpstream`. -/
structure UsageUpstream where
  name : String
  requests : Nat
  errors : Nat
  breakers : GoMap String String

/-- `usageBody`. -/
structure UsageBody where
  latencyBoundsMS : List ℚ
  buckets : List UsageBucket
  upstreams : List UsageUpstream

/-- The two maps of the loop over the rows. -/
structure UsageMaps where
  byMinute : GoMap Nat UsageBucket
  upstreams : GoMap String UsageUpstream

/-- The zero value of `usageStep`. -/
def noUsage : StepUsage := ⟨0, 0, 0, 0, ""⟩

/-- What one row adds to a step. -/
def addStep (cur st : StepUsage) : StepUsage :=
  let total := cur.requests + st.requests
  { upstream := st.upstream
    requests := total
    errors := cur.errors + st.errors
    cacheHits := cur.cacheHits + st.cacheHits
    avgMS :=
      if 0 < total then (cur.avgMS * cur.requests + st.avgMS * st.requests) / total
      else cur.avgMS }

def emptyBucket (minute : Nat) : UsageBucket where
  timestamp := minute
  requests := 0
  errors := 0
  partials := 0
  latencyBuckets := List.replicate (latencyBucketBounds.length + 1) 0
  p95MS := 0
  steps := ∅

def newUpstream (name : String) : UsageUpstream := ⟨name, 0, 0, ∅⟩

/-- A step of a row is added to the steps of a minute under its name. -/
def countStep : GoMap String StepUsage → GoEntry String StepUsage → GoMap String StepUsage :=
  accumulate Sigma.fst (fun _ => noUsage) fun cur step => addStep cur step.2

/-- `b.Steps[name] = cur`. -/
def addStepTo (b : UsageBucket) (step : GoEntry String StepUsage) : UsageBucket :=
  { b with steps := countStep b.steps step }

/-- What one row adds to an upstream. -/
def addToUpstream (u : UsageUpstream) (step : GoEntry String StepUsage) : UsageUpstream :=
  { u with requests := u.requests + step.2.requests, errors := u.errors + step.2.errors }

/-- A step of a row is added to its upstream. -/
def countUpstream :
    GoMap String UsageUpstream → GoEntry String StepUsage → GoMap String UsageUpstream :=
  accumulate (fun step => step.2.upstream) newUpstream addToUpstream

/-- One step of a row. -/
def readStep (maps : UsageBucket × GoMap String UsageUpstream) (step : GoEntry String StepUsage) :
    UsageBucket × GoMap String UsageUpstream :=
  (addStepTo maps.1 step, countUpstream maps.2 step)

/-- The counts of a row. -/
def addCountsTo (b : UsageBucket) (row : UsageRow) : UsageBucket :=
  { b with
    requests := b.requests + row.requests
    errors := b.errors + row.errors
    partials := b.partials + row.partials
    latencyBuckets := addCounts b.latencyBuckets row.latencyBuckets }

/-- One row. -/
def readRow (maps : UsageMaps) (row : UsageRow) : UsageMaps :=
  let b := (maps.byMinute.lookup row.minute).getD (emptyBucket row.minute)
  let (b, upstreams) := row.steps.entries.foldl readStep (addCountsTo b row, maps.upstreams)
  ⟨maps.byMinute.insert row.minute b, upstreams⟩

/-- `u.Breakers[id] = state`. -/
def attachBreaker (id : String) (upstreams : GoMap String UsageUpstream)
    (breaker : GoEntry String String) : GoMap String UsageUpstream :=
  match upstreams.lookup breaker.1 with
  | some u => upstreams.insert breaker.1 { u with breakers := u.breakers.insert id breaker.2 }
  | none => upstreams

/-- `staleAfter`. -/
def staleAfter : Nat := 60000

/-- `attachBreakers`. -/
def attachBreakers (now : Nat) (instances : List InstanceRow)
    (upstreams : GoMap String UsageUpstream) : GoMap String UsageUpstream :=
  instances.foldl (fun upstreams row =>
    if row.lastSeenAt + staleAfter ≤ now then upstreams
    else row.breakers.entries.foldl (attachBreaker row.instanceID) upstreams) upstreams

/-- `b.P95MS = histogramPercentile(b.LatencyBuckets, 0.95)`. -/
def UsageBucket.withP95 (b : UsageBucket) : UsageBucket :=
  { b with p95MS := histogramPercentile b.latencyBuckets p95 }

/-- `usage`, of what the two statements select. -/
def usage (now : Nat) (rows : List UsageRow) (instances : List InstanceRow) : UsageBody :=
  let maps := rows.foldl readRow ⟨∅, ∅⟩
  let upstreams := attachBreakers now instances maps.upstreams
  { latencyBoundsMS := latencyBucketBounds
    buckets :=
      (maps.byMinute.entries.map (·.2.withP95)).insertionSort fun first second =>
        first.timestamp ≤ second.timestamp
    upstreams :=
      (upstreams.entries.map (·.2)).insertionSort fun first second => first.name ≤ second.name }

/-- The `SELECT` of `usage`, in one of its orders. -/
def selectUsage (environment composition : String) (start stop : Nat) (table : List UsageRow) :
    List UsageRow :=
  table.filter fun row =>
    row.environment = environment && row.composition = composition &&
      start ≤ row.minute * 60000 && row.minute * 60000 ≤ stop

/-- The time that the requests of a step took together. -/
def StepUsage.totalMS (step : StepUsage) : ℚ := step.avgMS * step.requests

/-- A step of a minute adds up what the rows of the minute say of it, and names the upstream
of one of them. -/
def StepTotals (parts : List StepUsage) : Option StepUsage → Prop
  | none => parts = []
  | some step =>
      step.requests = (parts.map (·.requests)).sum ∧
      step.errors = (parts.map (·.errors)).sum ∧
      step.cacheHits = (parts.map (·.cacheHits)).sum ∧
      step.totalMS = (parts.map (·.totalMS)).sum ∧
      ∃ part ∈ parts, part.upstream = step.upstream

/-- A minute adds up its rows. -/
structure BucketTotals (rows : List UsageRow) (b : UsageBucket) : Prop where
  requests : b.requests = (rows.map (·.requests)).sum
  errors : b.errors = (rows.map (·.errors)).sum
  partials : b.partials = (rows.map (·.partials)).sum
  latency : b.latencyBuckets = mergeLatency (rows.map (·.latencyBuckets))
  p95 : b.p95MS = histogramPercentile b.latencyBuckets p95
  steps : ∀ name, StepTotals (rows.filterMap (·.steps.lookup name)) (b.steps.lookup name)

/-- An upstream adds up the steps that call it, and has the breakers of the live instances. -/
structure UpstreamTotals (now : Nat) (steps : List StepUsage) (instances : List InstanceRow)
    (u : UsageUpstream) : Prop where
  requests : u.requests = (steps.map (·.requests)).sum
  errors : u.errors = (steps.map (·.errors)).sum
  breakers : ∀ id state, u.breakers.lookup id = some state ↔
    ∃ row ∈ instances, row.instanceID = id ∧ now < row.lastSeenAt + staleAfter ∧
      row.breakers.lookup u.name = some state

/-- The steps of some rows. -/
def stepsOf (rows : List UsageRow) : List StepUsage :=
  rows.flatMap fun row => row.steps.entries.map (·.2)

/-- What the usage page says. -/
structure UsageTotals (now : Nat) (rows : List UsageRow) (instances : List InstanceRow)
    (body : UsageBody) : Prop where
  bounds : body.latencyBoundsMS = latencyBucketBounds
  minutes : (body.buckets.map (·.timestamp)).Pairwise (· < ·)
  minute_iff : ∀ minute, minute ∈ body.buckets.map (·.timestamp) ↔ minute ∈ rows.map (·.minute)
  bucket : ∀ b ∈ body.buckets, BucketTotals (rows.filter (·.minute = b.timestamp)) b
  names : (body.upstreams.map (·.name)).Pairwise (· < ·)
  name_iff : ∀ name, name ∈ body.upstreams.map (·.name) ↔ name ∈ (stepsOf rows).map (·.upstream)
  upstream : ∀ u ∈ body.upstreams,
    UpstreamTotals now ((stepsOf rows).filter (·.upstream = u.name)) instances u
  /-- What the upstreams were asked is what the steps of the minutes were. -/
  conserved : (body.upstreams.map (·.requests)).sum =
    (body.buckets.map fun b => (b.steps.entries.map (·.2.requests)).sum).sum

section Step

/-- The requests of several steps add up. -/
theorem requests_foldl_addStep (parts : List StepUsage) (cur : StepUsage) :
    (parts.foldl addStep cur).requests = cur.requests + (parts.map (·.requests)).sum :=
  foldl_weight addStep (·.requests) (·.requests) (fun _ _ => rfl) parts cur

/-- The mean is weighted by the requests. -/
theorem totalMS_addStep (cur st : StepUsage) :
    (addStep cur st).totalMS = cur.totalMS + st.totalMS := by
  simp only [addStep, StepUsage.totalMS]
  split
  · rename_i positive
    have nonzero : ((cur.requests + st.requests : Nat) : ℚ) ≠ 0 := by exact_mod_cast positive.ne'
    field_simp
  · have both : cur.requests = 0 ∧ st.requests = 0 := by omega
    simp [both.1, both.2]

/-- The upstream of several steps is that of one of them. -/
theorem upstream_foldl_addStep {parts : List StepUsage} (nonempty : parts ≠ [])
    (cur : StepUsage) :
    ∃ part ∈ parts, part.upstream = (parts.foldl addStep cur).upstream := by
  obtain ⟨before, last, rfl⟩ := (List.eq_nil_or_concat parts).resolve_left nonempty
  refine ⟨last, by simp, ?_⟩
  rw [List.concat_eq_append, List.foldl_concat]
  simp [addStep]

/-- Several steps add up to their totals. -/
theorem stepTotals_foldl {parts : List StepUsage} (nonempty : parts ≠ []) :
    StepTotals parts (some (parts.foldl addStep noUsage)) := by
  have requests := requests_foldl_addStep parts noUsage
  have errors := foldl_weight addStep (·.errors) (·.errors) (fun _ _ => rfl) parts noUsage
  have cacheHits := foldl_weight addStep (·.cacheHits) (·.cacheHits) (fun _ _ => rfl)
    parts noUsage
  have mean := foldl_weight addStep (·.totalMS) (·.totalMS) totalMS_addStep parts noUsage
  simp only [noUsage, Nat.zero_add] at requests errors cacheHits
  simp only [noUsage, StepUsage.totalMS, Nat.cast_zero, mul_zero, zero_add] at mean
  exact ⟨requests, errors, cacheHits, mean, upstream_foldl_addStep nonempty noUsage⟩

end Step

section Minutes

/-- What a row adds to its minute. -/
def addRow (b : UsageBucket) (row : UsageRow) : UsageBucket :=
  row.steps.entries.foldl addStepTo (addCountsTo b row)

/-- Reading the steps counts them for the bucket and for the upstreams. -/
theorem foldl_readStep (steps : List (GoEntry String StepUsage)) (b : UsageBucket)
    (upstreams : GoMap String UsageUpstream) :
    steps.foldl readStep (b, upstreams) =
      (steps.foldl addStepTo b, steps.foldl countUpstream upstreams) := by
  induction steps generalizing b upstreams with
  | nil => rfl
  | cons step rest ih => exact ih _ _

/-- The loop over the rows is two: one fills the minutes, one the upstreams. -/
theorem foldl_readRow (rows : List UsageRow) (maps : UsageMaps) :
    rows.foldl readRow maps =
      ⟨rows.foldl (accumulate UsageRow.minute emptyBucket addRow) maps.byMinute,
        (rows.flatMap (·.steps.entries)).foldl countUpstream maps.upstreams⟩ := by
  induction rows generalizing maps with
  | nil => rfl
  | cons row rest ih =>
      rw [List.foldl_cons, ih, List.flatMap_cons, List.foldl_append]
      simp only [readRow, foldl_readStep]
      rfl

/-- Adding steps to a bucket changes its steps only. -/
theorem foldl_addStepTo (steps : List (GoEntry String StepUsage)) (b : UsageBucket) :
    steps.foldl addStepTo b = { b with steps := steps.foldl countStep b.steps } := by
  induction steps generalizing b with
  | nil => rfl
  | cons step rest ih => exact ih _

/-- A row adds its counts and its steps. -/
theorem addRow_eq (b : UsageBucket) (row : UsageRow) :
    addRow b row =
      { addCountsTo b row with steps := row.steps.entries.foldl countStep b.steps } :=
  foldl_addStepTo row.steps.entries (addCountsTo b row)

/-- Rows leave the minute of the bucket. -/
theorem timestamp_foldl_addRow (rows : List UsageRow) (b : UsageBucket) :
    (rows.foldl addRow b).timestamp = b.timestamp := by
  induction rows generalizing b with
  | nil => rfl
  | cons row rest ih => rw [List.foldl_cons, ih, addRow_eq, addCountsTo]

/-- The latency counts of the rows add up. -/
theorem latency_foldl_addRow (rows : List UsageRow) (b : UsageBucket) :
    (rows.foldl addRow b).latencyBuckets =
      (rows.map (·.latencyBuckets)).foldl addCounts b.latencyBuckets := by
  induction rows generalizing b with
  | nil => rfl
  | cons row rest ih =>
      rw [List.foldl_cons, ih, addRow_eq, addCountsTo, List.map_cons, List.foldl_cons]

/-- The steps of the rows are counted one after the other. -/
theorem steps_foldl_addRow (rows : List UsageRow) (b : UsageBucket) :
    (rows.foldl addRow b).steps = (rows.flatMap (·.steps.entries)).foldl countStep b.steps := by
  induction rows generalizing b with
  | nil => rfl
  | cons row rest ih =>
      rw [List.foldl_cons, ih, addRow_eq, List.flatMap_cons, List.foldl_append]

/-- A step has the sum of those with its name. -/
theorem lookup_foldl_countStep (steps : List (GoEntry String StepUsage)) (name : String) :
    (steps.foldl countStep ∅).lookup name =
      if ∃ step ∈ steps, step.1 = name then
        some (((steps.filter (·.1 = name)).map (·.2)).foldl addStep noUsage)
      else none := by
  rw [List.foldl_map]
  exact lookup_accumulated steps name

/-- A step of a minute adds up the entries of its name. -/
theorem stepTotals_foldl_addRow (rows : List UsageRow) (minute : Nat) (name : String) :
    StepTotals (rows.filterMap (·.steps.lookup name))
      ((rows.foldl addRow (emptyBucket minute)).steps.lookup name) := by
  have parts := filter_flatMap_entries (rows.map (·.steps)) name
  rw [List.flatMap_map, List.filterMap_map, Function.comp_def] at parts
  rw [steps_foldl_addRow, emptyBucket, lookup_foldl_countStep, parts]
  have named : (∃ step ∈ rows.flatMap (·.steps.entries), step.1 = name) ↔
      rows.filterMap (·.steps.lookup name) ≠ [] := by
    rw [← parts, ne_eq, List.map_eq_nil_iff, List.filter_eq_nil_iff]
    simp
  split
  · rename_i present
    exact stepTotals_foldl (named.mp present)
  · rename_i absent
    exact not_not.mp (mt named.mpr absent)

/-- A count of a minute adds up. -/
theorem count_foldl_addRow (count : UsageBucket → Nat) (gain : UsageRow → Nat) {minute : Nat}
    (none_ : count (emptyBucket minute) = 0)
    (adds : ∀ b row, count (addRow b row) = count b + gain row) (rows : List UsageRow) :
    count (rows.foldl addRow (emptyBucket minute)) = (rows.map gain).sum := by
  rw [foldl_weight addRow count gain adds, none_, Nat.zero_add]

/-- The rows of a minute add up to the totals of its bucket. -/
theorem bucketTotals_foldl (rows : List UsageRow) (minute : Nat) :
    BucketTotals rows (rows.foldl addRow (emptyBucket minute)).withP95 where
  requests := count_foldl_addRow (·.requests) (·.requests) rfl (fun b row => by rw [addRow_eq]; rfl) rows
  errors := count_foldl_addRow (·.errors) (·.errors) rfl (fun b row => by rw [addRow_eq]; rfl) rows
  partials := count_foldl_addRow (·.partials) (·.partials) rfl (fun b row => by rw [addRow_eq]; rfl) rows
  latency := latency_foldl_addRow rows (emptyBucket minute)
  p95 := rfl
  steps := stepTotals_foldl_addRow rows minute

/-- The bucket of a minute, before its percentile. -/
theorem lookup_byMinute {rows : List UsageRow} {minute : Nat} {b : UsageBucket} :
    (rows.foldl (accumulate UsageRow.minute emptyBucket addRow) ∅).lookup minute = some b ↔
      minute ∈ rows.map (·.minute) ∧
        (rows.filter (·.minute = minute)).foldl addRow (emptyBucket minute) = b := by
  rw [lookup_accumulated_eq_some, List.mem_map]

/-- There is a bucket for each minute that has a row. -/
theorem mem_keys_byMinute (rows : List UsageRow) (minute : Nat) :
    minute ∈ (rows.foldl (accumulate UsageRow.minute emptyBucket addRow) ∅).keys ↔
      minute ∈ rows.map (·.minute) := by
  simp only [mem_keys_iff, lookup_byMinute, exists_and_left, exists_eq', and_true]

end Minutes

section Breakers

/-- The state that a live instance reports for an upstream. -/
def InstanceRow.breakerOf (now : Nat) (name : String) (row : InstanceRow) : Option String :=
  if row.lastSeenAt + staleAfter ≤ now then none else row.breakers.lookup name

/-- An upstream with the state that an instance reports for it. -/
def withBreaker (u : UsageUpstream) (id : String) : Option String → UsageUpstream
  | some state => { u with breakers := u.breakers.insert id state }
  | none => u

/-- An instance reports a breaker unless it is stale. -/
theorem breakerOf_eq_some {now : Nat} {name state : String} {row : InstanceRow} :
    row.breakerOf now name = some state ↔
      now < row.lastSeenAt + staleAfter ∧ row.breakers.lookup name = some state := by
  unfold InstanceRow.breakerOf
  split
  · rename_i stale
    exact ⟨nofun, fun live => absurd live.1 (by omega)⟩
  · rename_i live
    exact ⟨fun same => ⟨by omega, same⟩, And.right⟩

/-- The state of a breaker is attached to its own upstream. -/
theorem lookup_attachBreaker (id : String) (upstreams : GoMap String UsageUpstream)
    (breaker : GoEntry String String) (name : String) :
    (attachBreaker id upstreams breaker).lookup name =
      (upstreams.lookup name).map fun u =>
        withBreaker u id (if breaker.1 = name then some breaker.2 else none) := by
  unfold attachBreaker
  by_cases here : breaker.1 = name
  · subst here
    cases found : upstreams.lookup breaker.1 with
    | none => simp [found]
    | some u => simp [withBreaker]
  · cases upstreams.lookup breaker.1 with
    | none => simp [here, withBreaker]
    | some u => simp [here, withBreaker, AList.lookup_insert_ne (Ne.symm here)]

/-- One instance adds its state of an upstream. -/
theorem lookup_foldl_attachBreaker (id : String) (upstreams : GoMap String UsageUpstream)
    {breakers : List (GoEntry String String)} (nodup : breakers.NodupKeys) (name : String) :
    (breakers.foldl (attachBreaker id) upstreams).lookup name =
      (upstreams.lookup name).map fun u => withBreaker u id (breakers.dlookup name) := by
  induction breakers generalizing upstreams with
  | nil => simp [withBreaker]
  | cons breaker rest ih =>
      obtain ⟨key, state⟩ := breaker
      obtain ⟨absent, laterNodup⟩ := List.nodupKeys_cons.mp nodup
      rw [List.foldl_cons, ih _ laterNodup, lookup_attachBreaker, Option.map_map]
      by_cases here : key = name
      · subst here
        rw [List.dlookup_eq_none.mpr absent, List.dlookup_cons_eq]
        simp [Function.comp_def, withBreaker]
      · rw [List.dlookup_cons_ne _ _ (Ne.symm here)]
        simp [Function.comp_def, here, withBreaker]

/-- Every instance attaches the states of its breakers. -/
theorem lookup_attachBreakers (now : Nat) (instances : List InstanceRow)
    (upstreams : GoMap String UsageUpstream) (name : String) :
    (attachBreakers now instances upstreams).lookup name =
      (upstreams.lookup name).map fun u =>
        instances.foldl (fun u row => withBreaker u row.instanceID (row.breakerOf now name)) u := by
  unfold attachBreakers
  induction instances generalizing upstreams with
  | nil => simp
  | cons row rest ih =>
      rw [List.foldl_cons, ih]
      split
      · rename_i stale
        simp [InstanceRow.breakerOf, stale, withBreaker]
      · rename_i live
        rw [lookup_foldl_attachBreaker _ _ row.breakers.nodupKeys, Option.map_map]
        simp [InstanceRow.breakerOf, live, AList.lookup, Function.comp_def]

/-- Nothing but the breakers of an upstream changes. -/
theorem foldl_withBreaker (now : Nat) (name : String) (instances : List InstanceRow)
    (u : UsageUpstream) :
    let after := instances.foldl
      (fun u row => withBreaker u row.instanceID (row.breakerOf now name)) u
    after = { u with breakers := after.breakers } := by
  induction instances generalizing u with
  | nil => rfl
  | cons row rest ih =>
      have later := ih (withBreaker u row.instanceID (row.breakerOf now name))
      dsimp only at later ⊢
      rw [List.foldl_cons, later]
      cases row.breakerOf now name <;> rfl

/-- The breakers of an upstream are what the live instances report. -/
theorem lookup_breakers {now : Nat} {name id state : String} {instances : List InstanceRow}
    (unique : (instances.map (·.instanceID)).Nodup) (u : UsageUpstream) (none_ : u.breakers = ∅) :
    (instances.foldl (fun u row => withBreaker u row.instanceID (row.breakerOf now name))
      u).breakers.lookup id = some state ↔
      ∃ row ∈ instances, row.instanceID = id ∧ row.breakerOf now name = some state := by
  induction instances using List.reverseRecOn generalizing state with
  | nil => simp [none_]
  | append_singleton instances row ih =>
      rw [List.map_append, List.nodup_append] at unique
      obtain ⟨distinct, -, apart⟩ := unique
      rw [List.foldl_concat]
      simp only [List.mem_append, List.mem_singleton, or_and_right, exists_or, exists_eq_left]
      rw [← ih distinct, withBreaker.eq_def]
      cases reported : row.breakerOf now name with
      | none => simp
      | some given =>
          by_cases here : row.instanceID = id
          · subst here
            have new : ∀ other ∈ instances, other.instanceID ≠ row.instanceID := by
              intro other member same
              exact apart _ (List.mem_map_of_mem member) _ (by simp) same
            rw [ih distinct]
            simp only [AList.lookup_insert, true_and]
            constructor
            · exact .inr
            · rintro (⟨other, member, same, -⟩ | same)
              · exact absurd same (new other member)
              · exact same
          · simp [AList.lookup_insert_ne (Ne.symm here), here]

/-- A state of a breaker changes no count. -/
theorem sum_attachBreaker (id : String) (upstreams : GoMap String UsageUpstream)
    (breaker : GoEntry String String) :
    ((attachBreaker id upstreams breaker).entries.map (·.2.requests)).sum =
      (upstreams.entries.map (·.2.requests)).sum := by
  unfold attachBreaker
  split
  · rename_i u found
    have inserted := sum_insert UsageUpstream.requests upstreams breaker.1
      { u with breakers := u.breakers.insert id breaker.2 }
    rw [found] at inserted
    exact Nat.add_right_cancel inserted
  · rfl

/-- Attaching breakers leaves the requests. -/
theorem sum_attachBreakers (now : Nat) (instances : List InstanceRow)
    (upstreams : GoMap String UsageUpstream) :
    ((attachBreakers now instances upstreams).entries.map (·.2.requests)).sum =
      (upstreams.entries.map (·.2.requests)).sum := by
  have one : ∀ (id : String) (breakers : List (GoEntry String String)) upstreams,
      ((breakers.foldl (attachBreaker id) upstreams).entries.map (·.2.requests)).sum =
        (upstreams.entries.map (·.2.requests)).sum := by
    intro id breakers
    induction breakers with
    | nil => exact fun _ => rfl
    | cons breaker rest ih =>
        intro upstreams
        rw [List.foldl_cons, ih, sum_attachBreaker]
  unfold attachBreakers
  induction instances generalizing upstreams with
  | nil => rfl
  | cons row rest ih =>
      rw [List.foldl_cons, ih]
      split
      · rfl
      · exact one ..

end Breakers

section Upstreams

/-- The steps of the rows are those of their entries. -/
theorem stepsOf_eq (rows : List UsageRow) :
    stepsOf rows = (rows.flatMap (·.steps.entries)).map (·.2) := by
  rw [stepsOf, List.map_flatMap]

/-- Steps add their requests to the upstream and leave the rest. -/
theorem foldl_addToUpstream (steps : List (GoEntry String StepUsage)) (u : UsageUpstream) :
    steps.foldl addToUpstream u =
      { u with
        requests := u.requests + ((steps.map (·.2)).map (·.requests)).sum
        errors := u.errors + ((steps.map (·.2)).map (·.errors)).sum } := by
  induction steps generalizing u with
  | nil => rfl
  | cons step rest ih => simp [ih, addToUpstream, Nat.add_assoc]

/-- What the steps that call an upstream add up to. -/
def totalOf (steps : List StepUsage) (name : String) : UsageUpstream where
  name := name
  requests := ((steps.filter (·.upstream = name)).map (·.requests)).sum
  errors := ((steps.filter (·.upstream = name)).map (·.errors)).sum
  breakers := ∅

/-- The upstreams before the breakers are attached. -/
theorem lookup_countUpstream (rows : List UsageRow) (name : String) :
    ((rows.flatMap (·.steps.entries)).foldl countUpstream ∅).lookup name =
      if name ∈ (stepsOf rows).map (·.upstream) then some (totalOf (stepsOf rows) name)
      else none := by
  unfold countUpstream
  rw [lookup_accumulated, foldl_addToUpstream, totalOf, stepsOf_eq, List.filter_map]
  refine if_congr ?_ ?_ rfl
  · rw [List.map_map, List.mem_map]
    rfl
  · simp [newUpstream, Function.comp_def]

/-- The steps and the breakers of an upstream add up to its totals. -/
theorem upstreamTotals_of_breakers (now : Nat) {instances : List InstanceRow}
    (unique : (instances.map (·.instanceID)).Nodup) (steps : List StepUsage) (name : String) :
    let u := instances.foldl (fun u row => withBreaker u row.instanceID (row.breakerOf now name))
      (totalOf steps name)
    u.name = name ∧ UpstreamTotals now (steps.filter (·.upstream = name)) instances u := by
  intro u
  have same : u = { totalOf steps name with breakers := u.breakers } :=
    foldl_withBreaker now name instances (totalOf steps name)
  have named : u.name = name := by rw [same, totalOf]
  refine ⟨named, by rw [same, totalOf], by rw [same, totalOf], fun id state => ?_⟩
  rw [lookup_breakers unique (totalOf steps name) rfl, named]
  simp only [breakerOf_eq_some]

/-- The upstreams of the page. -/
theorem lookup_upstreams (now : Nat) (rows : List UsageRow) {instances : List InstanceRow}
    (unique : (instances.map (·.instanceID)).Nodup) (name : String) :
    match (attachBreakers now instances
      ((rows.flatMap (·.steps.entries)).foldl countUpstream ∅)).lookup name with
    | some u => u.name = name ∧ name ∈ (stepsOf rows).map (·.upstream) ∧
        UpstreamTotals now ((stepsOf rows).filter (·.upstream = u.name)) instances u
    | none => name ∉ (stepsOf rows).map (·.upstream) := by
  rw [lookup_attachBreakers, lookup_countUpstream]
  split_ifs with present
  · obtain ⟨named, totals⟩ := upstreamTotals_of_breakers now unique (stepsOf rows) name
    exact ⟨named, present, by rwa [named]⟩
  · exact present

end Upstreams

section Page

/-- Minutes and upstreams are entries under their own names. -/
theorem map_of_keys {κ ν : Type} {map : GoMap κ ν} [DecidableEq κ] {name : ν → κ}
    (named : ∀ key value, map.lookup key = some value → name value = key) :
    (map.entries.map (·.2)).map name = map.keys := by
  rw [List.map_map, AList.keys, List.keys]
  exact List.map_congr_left fun entry member => named entry.1 entry.2 (mem_entries_iff.mp member)

/-- The minutes of the page. -/
theorem bucket_of_entry (rows : List UsageRow) (minute : Nat) (b : UsageBucket)
    (found : (rows.foldl (accumulate UsageRow.minute emptyBucket addRow) ∅).lookup minute =
      some b) :
    b.timestamp = minute ∧ BucketTotals (rows.filter (·.minute = minute)) b.withP95 := by
  obtain ⟨-, rfl⟩ := lookup_byMinute.mp found
  exact ⟨timestamp_foldl_addRow _ _, bucketTotals_foldl _ minute⟩

/-- The requests of the steps of a minute. -/
def UsageBucket.stepRequests (b : UsageBucket) : Nat := (b.steps.entries.map (·.2.requests)).sum

/-- A row adds the requests of its steps. -/
theorem stepRequests_addRow (b : UsageBucket) (row : UsageRow) :
    (addRow b row).stepRequests = b.stepRequests + (row.steps.entries.map (·.2.requests)).sum := by
  rw [addRow_eq]
  exact sum_accumulated Sigma.fst (fun _ => noUsage) (fun cur step => addStep cur step.2)
    StepUsage.requests (·.2.requests) (fun _ => rfl) (fun _ _ => rfl) row.steps.entries b.steps

/-- The upstreams and the steps of the minutes were asked the same number of times. -/
theorem sum_upstreams_eq (rows : List UsageRow) :
    (((rows.flatMap (·.steps.entries)).foldl countUpstream ∅).entries.map (·.2.requests)).sum =
      ((rows.foldl (accumulate UsageRow.minute emptyBucket addRow) ∅).entries.map
        (·.2.stepRequests)).sum := by
  have upstreams := sum_accumulated (fun step : GoEntry String StepUsage => step.2.upstream)
    newUpstream addToUpstream UsageUpstream.requests (·.2.requests) (fun _ => rfl) (fun _ _ => rfl)
    (rows.flatMap (·.steps.entries)) ∅
  have minutes := sum_accumulated UsageRow.minute emptyBucket addRow UsageBucket.stepRequests
    _ (fun _ => rfl) stepRequests_addRow rows ∅
  rw [minutes]
  refine upstreams.trans (congrArg₂ _ rfl ?_)
  rw [List.map_flatMap, List.flatMap_def, List.sum_flatten, List.map_map]
  rfl

/-- What is read from the rows are their totals. -/
theorem usageTotals (now : Nat) (rows : List UsageRow) {instances : List InstanceRow}
    (unique : (instances.map (·.instanceID)).Nodup) :
    UsageTotals now rows instances (usage now rows instances) := by
  have bucket := bucket_of_entry rows
  have upstream := lookup_upstreams now rows unique
  have sums := (sum_attachBreakers now instances _).trans (sum_upstreams_eq rows)
  have minutes := mem_keys_byMinute rows
  unfold usage
  rw [foldl_readRow]
  dsimp only
  generalize rows.foldl (accumulate UsageRow.minute emptyBucket addRow) ∅ = byMinute at *
  generalize attachBreakers now instances _ = upstreams at *
  have timestamps : (byMinute.entries.map (·.2.withP95)).map UsageBucket.timestamp =
      byMinute.keys := by
    rw [← map_of_keys fun minute b found => (bucket minute b found).1, List.map_map, List.map_map]
    rfl
  have names : (upstreams.entries.map (·.2)).map UsageUpstream.name = upstreams.keys := by
    refine map_of_keys fun name u found => ?_
    have totals := upstream name
    rw [found] at totals
    exact totals.1
  constructor
  case bounds => rfl
  case minutes =>
    exact pairwise_lt_insertionSort UsageBucket.timestamp (timestamps ▸ byMinute.keys_nodup)
  case names =>
    exact pairwise_lt_insertionSort UsageUpstream.name (names ▸ upstreams.keys_nodup)
  case minute_iff =>
    intro minute
    rw [((List.perm_insertionSort _ _).map _).mem_iff, timestamps, minutes]
  case bucket =>
    intro b member
    rw [List.mem_insertionSort, List.mem_map] at member
    obtain ⟨entry, listed, rfl⟩ := member
    obtain ⟨same, totals⟩ := bucket entry.1 entry.2 (mem_entries_iff.mp listed)
    rwa [← same] at totals
  case name_iff =>
    intro name
    rw [((List.perm_insertionSort _ _).map _).mem_iff, names, mem_keys_iff]
    have totals := upstream name
    split at totals
    · rename_i u found
      simp [found, totals.2.1]
    · rename_i missing
      simp [missing, totals]
  case upstream =>
    intro u member
    rw [List.mem_insertionSort, List.mem_map] at member
    obtain ⟨entry, listed, rfl⟩ := member
    have totals := upstream entry.1
    rw [mem_entries_iff.mp listed] at totals
    exact totals.2.2
  case conserved =>
    rw [((List.perm_insertionSort _ _).map _).sum_eq, ((List.perm_insertionSort _ _).map _).sum_eq,
      List.map_map, List.map_map]
    exact sums

end Page

section Order

/-- Counts are added in any order. -/
theorem addCounts_right_comm (counts first second : List Nat) :
    addCounts (addCounts counts first) second = addCounts (addCounts counts second) first := by
  refine List.ext_getElem (by simp [addCounts]) fun i _ _ => ?_
  simp only [addCounts, List.getElem_mapIdx]
  omega

/-- Latency counts are merged in any order. -/
theorem mergeLatency_perm {first second : List (List Nat)} (same : first.Perm second) :
    mergeLatency first = mergeLatency second := by
  have : RightCommutative addCounts := ⟨addCounts_right_comm⟩
  exact same.foldl_eq _

variable {rows others : List UsageRow} {now : Nat}

/-- The totals of steps are those of any order of them. -/
theorem StepTotals.perm {parts more : List StepUsage} {step : Option StepUsage}
    (totals : StepTotals parts step) (same : parts.Perm more) : StepTotals more step := by
  cases step with
  | none => exact (totals ▸ same).nil_eq.symm
  | some step =>
      obtain ⟨requests, errors, cacheHits, mean, part, member, upstream⟩ := totals
      refine ⟨requests.trans (same.map _).sum_eq, errors.trans (same.map _).sum_eq,
        cacheHits.trans (same.map _).sum_eq, mean.trans (same.map _).sum_eq, part,
        same.mem_iff.mp member, upstream⟩

/-- The totals of a bucket are those of any order of its rows. -/
theorem BucketTotals.perm {b : UsageBucket} (totals : BucketTotals rows b)
    (same : rows.Perm others) : BucketTotals others b where
  requests := totals.requests.trans (same.map _).sum_eq
  errors := totals.errors.trans (same.map _).sum_eq
  partials := totals.partials.trans (same.map _).sum_eq
  latency := totals.latency.trans (mergeLatency_perm (same.map _))
  p95 := totals.p95
  steps name := (totals.steps name).perm (same.filterMap _)

/-- The totals of an upstream are those of any order of its steps and instances. -/
theorem UpstreamTotals.perm {steps more : List StepUsage} {instances replicas : List InstanceRow}
    {u : UsageUpstream} (totals : UpstreamTotals now steps instances u) (same : steps.Perm more)
    (sameInstances : instances.Perm replicas) : UpstreamTotals now more replicas u where
  requests := totals.requests.trans (same.map _).sum_eq
  errors := totals.errors.trans (same.map _).sum_eq
  breakers id state := by simp only [totals.breakers, sameInstances.mem_iff]

/-- What the page says does not depend on the order of the rows. -/
theorem UsageTotals.perm {instances replicas : List InstanceRow} {body : UsageBody}
    (totals : UsageTotals now rows instances body) (same : rows.Perm others)
    (sameInstances : instances.Perm replicas) : UsageTotals now others replicas body where
  bounds := totals.bounds
  minutes := totals.minutes
  minute_iff minute := (totals.minute_iff minute).trans (same.map _).mem_iff
  bucket b member := (totals.bucket b member).perm (same.filter _)
  names := totals.names
  name_iff name := (totals.name_iff name).trans ((same.flatMap_right _).map _).mem_iff
  upstream u member := (totals.upstream u member).perm ((same.flatMap_right _).filter _)
    sameInstances
  conserved := totals.conserved

end Order

section Reachable

variable {Digest : Type} {parseHost : List Char → Option (List Char)} {sha256 : String → Digest}

/-- A request keeps the keys of the instances unique. -/
theorem unique_instances_handle {state : GatewayApi Digest} {environment : String} {now : Nat}
    (request : GatewayRequest) (unique : Unique InstanceRow.key state.instances) :
    Unique InstanceRow.key (state.handle parseHost environment now request).1.instances := by
  cases request with
  | artifact ifNoneMatch number =>
      rcases number with - | - | number <;> simp only [GatewayApi.handle]
      · exact unique
      · exact unique
      · split <;> exact unique
  | heartbeat hb =>
      simp only [GatewayApi.handle]
      split
      · exact unique
      · exact unique.upsertWith fun _ => rfl
  | usage push =>
      simp only [GatewayApi.handle]
      split
      · exact unique
      split
      · exact unique
      · cases push.breakers with
        | none => exact unique
        | some breakers => exact unique.upsertWith fun _ => rfl
  | requests push =>
      simp only [GatewayApi.handle]
      split
      · exact unique
      split <;> exact unique

variable [DecidableEq Digest]

/-- `PRIMARY KEY` of `studio_gateway_instances`. -/
theorem unique_instances {state : GatewayApi Digest}
    (reached : (gatewayApi parseHost sha256).Reachable state) :
    Unique InstanceRow.key state.instances := by
  refine reached.induction (fun state => Unique InstanceRow.key state.instances) ?_ ?_
  · rintro start rfl
    exact .nil
  · intro before event after _ unique stepped
    change gatewayStep parseHost sha256 before event = some after at stepped
    cases event with
    | createEnvironment | changeSettings | revokeToken | insertVersion =>
        cases stepped
        exact unique
    | issueToken =>
        simp only [gatewayStep] at stepped
        split at stepped <;> cases stepped <;> exact unique
    | authenticate =>
        simp only [gatewayStep] at stepped
        split at stepped
        · cases stepped
        split at stepped <;> cases stepped <;> exact unique
    | recordUse =>
        simp only [gatewayStep] at stepped
        split at stepped <;> cases stepped <;> exact unique
    | serve =>
        simp only [gatewayStep] at stepped
        split at stepped
        · cases stepped
          exact unique
        · cases stepped
          exact unique_instances_handle _ unique

/-- The usage page of an environment adds up what the gateways of this environment have
pushed, in whatever order the database lists the rows. -/
theorem usage_totals (parseHost : List Char → Option (List Char)) (sha256 : String → Digest)
    (state : GatewayApi Digest) (environment composition : String) (start stop now : Nat)
    (rows : List UsageRow) (instances : List InstanceRow)
    (reached : (gatewayApi parseHost sha256).Reachable state)
    (isRows : rows.Perm (selectUsage environment composition start stop state.usage))
    (isInstances : instances.Perm (inPart InstanceRow.environment environment state.instances)) :
    UsageTotals now (selectUsage environment composition start stop state.usage)
      (inPart InstanceRow.environment environment state.instances)
      (usage now rows instances) := by
  refine (usageTotals now rows ?_).perm isRows isInstances
  have unique := ((unique_instances reached).filter _).perm isInstances.symm
  refine (List.pairwise_map).mpr (unique.imp_of_mem ?_)
  intro first second isFirst isSecond apart same
  have inFirst := (mem_inPart.mp (isInstances.mem_iff.mp isFirst)).2
  have inSecond := (mem_inPart.mp (isInstances.mem_iff.mp isSecond)).2
  exact apart (Prod.ext (inFirst.trans inSecond.symm) same)

end Reachable

/-- What one instance pushes of the first minute. -/
def pushOf (instanceID : String) (requests : Nat) (avgMS : ℚ) : UsagePush where
  instanceID := instanceID
  buckets := [⟨60000, "", requests, 1, 0, [requests], (∅ : GoMap String StepUsage).insert "user"
    ⟨requests, 1, 0, avgMS, "users"⟩⟩]
  breakers := some ((∅ : GoMap String String).insert "users" "closed")

/-- Two instances of one environment push the same minute, one of them twice. -/
def twoInstances : List GatewayEvent :=
  [.createEnvironment "prod", .issueToken "prod" "1" "rgt_p",
   .authenticate 0 "Bearer rgt_p" (.usage (pushOf "a" 1 10)), .serve 0 90000,
   .authenticate 1 "Bearer rgt_p" (.usage (pushOf "b" 3 30)), .serve 1 100000,
   .authenticate 2 "Bearer rgt_p" (.usage (pushOf "a" 1 10)), .serve 2 110000]

/-- The pushes of two instances add up. -/
theorem usage_totals_of_two_instances :
    ∃ state : GatewayApi String,
      System.replay (gatewayStep (fun _ => none) id) emptyStudio twoInstances = some state ∧
      let body := usage 120000 (selectUsage "prod" "" 0 120000 state.usage)
        (inPart InstanceRow.environment "prod" state.instances)
      (body.upstreams.map (·.requests)) = [4] ∧
      UsageTotals 120000 (selectUsage "prod" "" 0 120000 state.usage)
        (inPart InstanceRow.environment "prod" state.instances) body := by
  let state := (System.replay (gatewayStep (fun _ => none) id) emptyStudio twoInstances).get
    (by decide)
  have ends : System.replay (gatewayStep (fun _ => none) id) emptyStudio twoInstances =
      some state := (Option.some_get _).symm
  refine ⟨state, ends, by decide, ?_⟩
  exact usage_totals (fun _ => none) id state "prod" "" 0 120000 120000 _ _
    (System.reachable_of_replay twoInstances (.initial rfl) ends) (.refl _) (.refl _)

end Restitch.Studio
