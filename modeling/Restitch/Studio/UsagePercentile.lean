import Mathlib.Data.Rat.Floor
import Mathlib.Algebra.Order.Floor.Semifield
import Mathlib.Tactic.Linarith
import Mathlib.Tactic.Ring
import Restitch.Std.Histogram

/-!
# The 95th percentile on the usage page (`internal/studio/usage.go`)

A gateway counts the latencies of a minute in buckets (`internal/admin/accumulator.go`). Studio
adds the counts of its instances and reads the percentile off the sum. Quantiles are exact
rationals, and so are latencies, which are only compared.
-/

namespace Restitch.Studio

open Restitch.Std

/-- `LatencyBucketBounds`. -/
def latencyBucketBounds : List ℚ := [10, 50, 100, 250, 500, 1000, 5000]

/-- The last bound. -/
def lastBound : ℚ := 5000

/-- `computeLatencyBuckets`. -/
def computeLatencyBuckets (latencies : List ℚ) : List Nat :=
  histogram latencyBucketBounds latencies

/-- The index that `percentile` picks in its sorted data. -/
def percentileIndex (n : Nat) (p : ℚ) : Int :=
  let idx := ⌈p * n⌉ - 1
  let idx := if idx < 0 then 0 else idx
  if (n : Int) ≤ idx then n - 1 else idx

/-- `percentile` before its rounding; of no data there is none. -/
def percentile (data : List ℚ) (p : ℚ) : Option ℚ :=
  data.mergeSort[(percentileIndex data.length p).toNat]?

/-- `histogramPercentile`. -/
def histogramPercentile (counts : List Nat) (p : ℚ) : ℚ :=
  if counts.sum = 0 then 0
  else
    latencyBucketBounds.getD (rankBucket ⌊counts.sum * p + 1 / 2⌋.toNat 0 counts) lastBound

/-- The counts of a minute: those of its rows, added bucket by bucket. -/
def mergeLatency (rows : List (List Nat)) : List Nat :=
  rows.foldl addCounts (List.replicate (latencyBucketBounds.length + 1) 0)

/-- The bound of the bucket of a latency. -/
def bucketBound (latency : ℚ) : ℚ :=
  latencyBucketBounds.getD (bucketOf latencyBucketBounds latency) lastBound

/-- `0.95`. -/
def p95 : ℚ := 19 / 20

/-- The percentile read off the counts is the bound of the bucket that holds the
percentile of the latencies, and so not below it. -/
def CoversP95 (counts : List Nat) (latencies : List ℚ) : Prop :=
  ∀ latency, percentile latencies p95 = some latency →
    histogramPercentile counts p95 = bucketBound latency ∧
      latency ≤ histogramPercentile counts p95

/-- The rank of the percentile among the latencies. -/
def p95Rank (n : Nat) : Nat := (19 * n + 19) / 20

/-- Rounding half up gives the rank of the percentile, or the latency one rank
below is in the same bucket. -/
def RankKept (latencies : List ℚ) : Prop :=
  latencies.length % 20 ≤ 10 ∨
    ∀ bound ∈ latencyBucketBounds, countAtMost latencies bound + 1 ≠ p95Rank latencies.length

/-- The bounds of the buckets are in order. -/
theorem latencyBucketBounds_sorted : latencyBucketBounds.Pairwise (· < ·) := by
  simp only [latencyBucketBounds]
  norm_num

/-- The rank is the number of latencies times the quantile, rounded up. -/
theorem ceil_p95 (n : Nat) : ⌈p95 * (n : ℚ)⌉ = (p95Rank n : Int) := by
  have bounds : p95Rank n * 20 ≤ 19 * n + 19 ∧ 19 * n ≤ p95Rank n * 20 := by
    rw [p95Rank]
    omega
  generalize p95Rank n = rank at bounds
  obtain ⟨lower, upper⟩ := bounds
  have lower' : (rank : ℚ) * 20 ≤ 19 * n + 19 := by exact_mod_cast lower
  have upper' : (19 : ℚ) * n ≤ rank * 20 := by exact_mod_cast upper
  rw [Int.ceil_eq_iff, p95, Int.cast_natCast]
  constructor <;> linarith

/-- The 95th percentile is the latency at its rank. -/
theorem percentileIndex_p95 {n : Nat} (positive : 0 < n) :
    (percentileIndex n p95).toNat + 1 = p95Rank n := by
  have range : 0 < p95Rank n ∧ p95Rank n ≤ n := by
    rw [p95Rank]
    omega
  unfold percentileIndex
  rw [ceil_p95]
  dsimp only
  rw [if_neg (by omega), if_neg (by omega)]
  omega

/-- The target of the running sum: the rank, or one less. -/
theorem target_p95 (n : Nat) :
    ⌊(n : ℚ) * p95 + 1 / 2⌋.toNat = if n % 20 ≤ 10 then p95Rank n else p95Rank n - 1 := by
  have half : (n : ℚ) * p95 + 1 / 2 = ((19 * n + 10 : Nat) : ℚ) / (20 : Nat) := by
    rw [p95]
    push_cast
    ring
  have rank : (19 * n + 19) / 20 = n - n / 20 := by omega
  have target : (19 * n + 10) / 20 = n - (n + 9) / 20 := by omega
  rw [half, Int.floor_toNat, Nat.floor_div_eq_div, p95Rank, rank, target]
  split <;> omega

/-- The bound of a latency is the first one at or above it. -/
theorem bucketBound_eq (latency : ℚ) :
    bucketBound latency =
      (latencyBucketBounds.find? fun bound => latency ≤ bound).getD lastBound := by
  rw [bucketBound, bucketOf, List.getD_eq_getElem?_getD, List.find?_eq_getElem?_findIdx]

/-- The percentile of counts is the first bound that as many latencies as the
target do not exceed. -/
theorem histogramPercentile_eq {latencies : List ℚ} (nonempty : latencies ≠ []) :
    histogramPercentile (computeLatencyBuckets latencies) p95 =
      (latencyBucketBounds.find? fun bound =>
        (if latencies.length % 20 ≤ 10 then p95Rank latencies.length
          else p95Rank latencies.length - 1) ≤ countAtMost latencies bound).getD lastBound := by
  have some : latencies.length ≠ 0 := List.length_eq_zero_iff.not.mpr nonempty
  rw [histogramPercentile, computeLatencyBuckets, sum_histogram, if_neg some, target_p95,
    getD_rankBucket_histogram latencyBucketBounds_sorted]

/-- The percentile of the latencies is in the bucket of the first bound that as many
latencies as its rank do not exceed. -/
theorem bucketBound_percentile {latencies : List ℚ} {latency : ℚ}
    (picked : percentile latencies p95 = some latency) :
    bucketBound latency =
      (latencyBucketBounds.find? fun bound =>
        p95Rank latencies.length ≤ countAtMost latencies bound).getD lastBound := by
  have positive : 0 < latencies.length := by
    have inside := (List.getElem?_eq_some_iff.mp picked).1
    rw [List.length_mergeSort] at inside
    omega
  rw [bucketBound_eq]
  simp only [le_iff_of_mergeSort picked, ← percentileIndex_p95 positive, Nat.succ_le_iff]

/-- The bound of a bucket is not below what is in it, up to the last bound. -/
theorem le_bucketBound {latency : ℚ} (within : latency ≤ lastBound) :
    latency ≤ bucketBound latency := by
  rw [bucketBound_eq]
  cases found : latencyBucketBounds.find? fun bound => latency ≤ bound with
  | none => exact within
  | some bound => simpa using List.find?_some found

/-- The counts give the bucket of the percentile exactly when rounding keeps its rank. -/
theorem histogramPercentile_eq_iff {latencies : List ℚ} (nonempty : latencies ≠ [])
    (bounded : ∀ latency ∈ latencies, latency ≤ lastBound) :
    (histogramPercentile (computeLatencyBuckets latencies) p95 =
      (latencyBucketBounds.find? fun bound =>
        p95Rank latencies.length ≤ countAtMost latencies bound).getD lastBound) ↔
      RankKept latencies := by
  rw [histogramPercentile_eq nonempty, RankKept]
  by_cases kept : latencies.length % 20 ≤ 10
  · rw [if_pos kept]
    exact iff_of_true rfl (.inl kept)
  · have all : countAtMost latencies lastBound = latencies.length :=
      List.countP_eq_length.mpr fun latency member => decide_eq_true (bounded latency member)
    have upward : ∀ bound bound' : ℚ, bound < bound' →
        decide (p95Rank latencies.length ≤ countAtMost latencies bound) = true →
        decide (p95Rank latencies.length ≤ countAtMost latencies bound') = true := by
      intro bound bound' smaller reached
      exact decide_eq_true ((of_decide_eq_true reached).trans (countAtMost_mono smaller.le))
    have stronger : ∀ bound : ℚ,
        decide (p95Rank latencies.length ≤ countAtMost latencies bound) = true →
        decide (p95Rank latencies.length - 1 ≤ countAtMost latencies bound) = true := by
      intro bound reached
      exact decide_eq_true ((Nat.sub_le ..).trans (of_decide_eq_true reached))
    have reached : ∃ bound ∈ latencyBucketBounds,
        decide (p95Rank latencies.length ≤ countAtMost latencies bound) = true := by
      refine ⟨lastBound, by simp [latencyBucketBounds, lastBound], ?_⟩
      rw [all, p95Rank, decide_eq_true_iff]
      omega
    rw [if_neg kept, getD_find?_eq_iff latencyBucketBounds_sorted upward stronger reached,
      or_iff_right kept]
    refine forall₂_congr ?_
    intro bound _
    rw [decide_eq_true_iff, decide_eq_true_iff, p95Rank]
    omega

/-- Latencies that are not empty have a percentile. -/
theorem percentile_isSome {latencies : List ℚ} (nonempty : latencies ≠ []) :
    ∃ latency, percentile latencies p95 = some latency := by
  have positive := List.length_pos_iff.mpr nonempty
  have rank := percentileIndex_p95 positive
  have inside : (percentileIndex latencies.length p95).toNat < latencies.mergeSort.length := by
    rw [List.length_mergeSort]
    rw [p95Rank] at rank
    omega
  exact ⟨_, List.getElem?_eq_getElem inside⟩

/-- The histogram of one list of latencies covers their percentile exactly when
rounding keeps its rank. -/
theorem coversP95_computeLatencyBuckets_iff {latencies : List ℚ}
    (bounded : ∀ latency ∈ latencies, latency ≤ lastBound) :
    CoversP95 (computeLatencyBuckets latencies) latencies ↔ RankKept latencies := by
  by_cases nonempty : latencies ≠ []
  · have agree := histogramPercentile_eq_iff nonempty bounded
    obtain ⟨latency, picked⟩ := percentile_isSome nonempty
    rw [← agree]
    constructor
    · intro covers
      rw [← bucketBound_percentile picked]
      exact (covers latency picked).1
    · intro same latency picked
      rw [← bucketBound_percentile picked] at same
      have member : latency ∈ latencies :=
        (List.mergeSort_perm latencies _).subset (List.mem_of_getElem? picked)
      exact ⟨same, same ▸ le_bucketBound (bounded latency member)⟩
  · obtain rfl := not_not.mp nonempty
    have none : percentile [] p95 = none := by simp [percentile]
    refine iff_of_true ?_ (.inl (Nat.zero_le _))
    intro latency picked
    rw [none] at picked
    cases picked

/-- Merging histograms is the histogram of all their latencies. -/
theorem mergeLatency_computeLatencyBuckets (instances : List (List ℚ)) :
    mergeLatency (instances.map computeLatencyBuckets) =
      computeLatencyBuckets instances.flatten := by
  have onward : ∀ before : List ℚ,
      (instances.map computeLatencyBuckets).foldl addCounts (computeLatencyBuckets before) =
        computeLatencyBuckets (before ++ instances.flatten) := by
    induction instances with
    | nil =>
        intro before
        rw [List.flatten_nil, List.append_nil]
        rfl
    | cons latencies instances ih =>
        intro before
        have added : addCounts (computeLatencyBuckets before) (computeLatencyBuckets latencies) =
            computeLatencyBuckets (before ++ latencies) :=
          addCounts_histogram ..
        rw [List.map_cons, List.foldl_cons, added, ih, List.flatten_cons, List.append_assoc]
  exact onward []

/-- Studio covers the percentile of an instance, and that of several instances
together, exactly when rounding keeps its rank. -/
theorem coversP95_iff_rankKept (instances : List (List ℚ))
    (bounded : ∀ latencies ∈ instances, ∀ latency ∈ latencies, latency ≤ lastBound) :
    (∀ latencies ∈ instances,
      (CoversP95 (computeLatencyBuckets latencies) latencies ↔ RankKept latencies)) ∧
    (CoversP95 (mergeLatency (instances.map computeLatencyBuckets)) instances.flatten ↔
      RankKept instances.flatten) := by
  refine ⟨fun latencies member => coversP95_computeLatencyBuckets_iff (bounded latencies member),
    ?_⟩
  rw [mergeLatency_computeLatencyBuckets]
  refine coversP95_computeLatencyBuckets_iff ?_
  intro latency member
  obtain ⟨latencies, listed, inside⟩ := List.mem_flatten.mp member
  exact bounded latencies listed latency inside

/-- Three requests to two instances. -/
theorem coversP95_of_three :
    CoversP95 (mergeLatency ([[5, 7], [60]].map computeLatencyBuckets)) [5, 7, 60] := by
  refine (coversP95_iff_rankKept [[5, 7], [60]] ?_).2.mpr (.inl (by decide))
  intro latencies listed latency member
  rcases List.mem_pair.mp listed with rfl | rfl <;>
    simp only [List.mem_cons, List.not_mem_nil, or_false] at member <;>
    rcases member with rfl | rfl <;> norm_num [lastBound]

/-- Ten requests of 5 ms and one of 4 s: the usage page says 10 ms. -/
theorem p95_below_slow_request :
    (∀ latency ∈ List.replicate 10 (5 : ℚ) ++ [4000], latency ≤ lastBound) ∧
      ¬ CoversP95 (computeLatencyBuckets (List.replicate 10 (5 : ℚ) ++ [4000]))
        (List.replicate 10 5 ++ [4000]) := by
  have bounded : ∀ latency ∈ List.replicate 10 (5 : ℚ) ++ [4000], latency ≤ lastBound := by
    norm_num [lastBound]
  refine ⟨bounded, ?_⟩
  rw [coversP95_computeLatencyBuckets_iff bounded, RankKept]
  rintro (small | separated)
  · simp at small
  · refine separated 10 (by simp [latencyBucketBounds]) ?_
    norm_num [countAtMost, p95Rank, List.countP_replicate]

end Restitch.Studio
