import Mathlib.Algebra.BigOperators.Group.List.Basic
import Mathlib.Algebra.GroupWithZero.Nat
import Mathlib.Data.List.Induction
import Mathlib.Data.List.Sort
import Mathlib.Order.Defs.LinearOrder

/-!
# Histograms with upper bounds

Values are counted in buckets: each bucket has an upper bound, and the last one
takes what is above every bound. What a histogram still knows of the order of its
values are the numbers of values up to each bound.
-/

namespace Restitch.Std

universe u

variable {α : Type u} [LinearOrder α]

/-- The first bucket whose bound a value does not exceed. -/
def bucketOf (bounds : List α) (value : α) : Nat :=
  bounds.findIdx fun bound => value ≤ bound

/-- Count every value in its bucket. -/
def histogram (bounds values : List α) : List Nat :=
  values.foldl (fun counts value => counts.modify (bucketOf bounds value) (· + 1))
    (List.replicate (bounds.length + 1) 0)

/-- Add the counts of another histogram, as far as there are buckets for them. -/
def addCounts (counts more : List Nat) : List Nat :=
  counts.mapIdx fun i count => count + more.getD i 0

/-- The bucket in which a running sum over the counts reaches a target. -/
def rankBucket (target : Nat) : Nat → List Nat → Nat
  | _, [] => 0
  | seen, count :: counts =>
      if target ≤ seen + count then 0 else rankBucket target (seen + count) counts + 1

/-- How many values do not exceed a bound. -/
def countAtMost (values : List α) (bound : α) : Nat :=
  values.countP fun value => value ≤ bound

/-- Every bucket counts its own values. -/
theorem histogram_eq_map (bounds values : List α) :
    histogram bounds values =
      (List.range (bounds.length + 1)).map fun i =>
        values.countP fun value => bucketOf bounds value = i := by
  induction values using List.reverseRecOn with
  | nil =>
      rw [histogram, List.foldl_nil]
      refine List.ext_getElem (by simp) ?_
      intro i _ _
      simp
  | append_singleton values value ih =>
      have step : histogram bounds (values ++ [value]) =
          (histogram bounds values).modify (bucketOf bounds value) (· + 1) := by
        rw [histogram, List.foldl_append]
        rfl
      rw [step, ih]
      refine List.ext_getElem (by simp) ?_
      intro i _ _
      simp only [List.getElem_modify, List.getElem_map, List.getElem_range, List.countP_append,
        List.countP_singleton]
      by_cases same : bucketOf bounds value = i
      · simp [same]
      · simp [same]

/-- There is one bucket more than bounds. -/
theorem length_histogram (bounds values : List α) :
    (histogram bounds values).length = bounds.length + 1 := by
  rw [histogram_eq_map, List.length_map, List.length_range]

/-- The histograms of two groups of values add up to the histogram of all of them. -/
theorem addCounts_histogram (bounds first second : List α) :
    addCounts (histogram bounds first) (histogram bounds second) =
      histogram bounds (first ++ second) := by
  rw [histogram_eq_map, histogram_eq_map, histogram_eq_map]
  refine List.ext_getElem (by simp [addCounts]) ?_
  intro i _ small
  have inRange : i < bounds.length + 1 := by simpa using small
  simp [addCounts, List.getD_eq_getElem?_getD, inRange, List.countP_append]

omit [LinearOrder α] in
/-- The values up to one bucket are those before it and those in it. -/
theorem countP_lt_succ (f : α → Nat) (values : List α) (k : Nat) :
    (values.countP fun value => f value < k + 1) =
      (values.countP fun value => f value < k) + values.countP fun value => f value = k := by
  induction values with
  | nil => rfl
  | cons value values ih =>
      simp only [List.countP_cons, ih, decide_eq_true_eq]
      split <;> split <;> split <;> omega

/-- The sum of the first counts is the number of values in these buckets. -/
theorem sum_take_histogram (bounds values : List α) {k : Nat} (within : k ≤ bounds.length + 1) :
    ((histogram bounds values).take k).sum =
      values.countP fun value => bucketOf bounds value < k := by
  rw [histogram_eq_map, ← List.map_take, List.take_range, Nat.min_eq_left within]
  induction k with
  | zero => simp
  | succ k ih =>
      rw [List.range_succ, List.map_append, List.sum_append, ih (Nat.le_of_succ_le within),
        countP_lt_succ]
      rfl

/-- Every value is in one bucket. -/
theorem sum_histogram (bounds values : List α) : (histogram bounds values).sum = values.length := by
  have whole : (histogram bounds values).take (bounds.length + 1) = histogram bounds values :=
    List.take_of_length_le (length_histogram ..).le
  rw [← whole, sum_take_histogram bounds values (Nat.le_refl _), List.countP_eq_length]
  intro value _
  exact decide_eq_true (Nat.lt_succ_of_le List.findIdx_le_length)

section Sorted

variable {bounds : List α} (sorted : bounds.Pairwise (· < ·))
include sorted

/-- A value is in one of the buckets up to a bound exactly when it does not exceed it. -/
theorem bucketOf_lt_succ_iff {k : Nat} (within : k < bounds.length) (value : α) :
    bucketOf bounds value < k + 1 ↔ value ≤ bounds[k] := by
  rw [bucketOf, Nat.lt_succ_iff]
  constructor
  · intro before
    have inside := Nat.lt_of_le_of_lt before within
    have found := List.findIdx_getElem (p := fun bound => decide (value ≤ bound)) (w := inside)
    rcases Nat.lt_or_eq_of_le before with earlier | same
    · exact (of_decide_eq_true found).trans
        (List.pairwise_iff_getElem.mp sorted _ _ inside within earlier).le
    · simpa [same] using found
  · intro below
    by_contra later
    have failed := List.not_of_lt_findIdx (Nat.lt_of_not_le later)
    exact absurd below (of_decide_eq_false failed)

/-- The counts up to a bound are the values that do not exceed it. -/
theorem sum_take_succ_histogram {k : Nat} (within : k < bounds.length) (values : List α) :
    ((histogram bounds values).take (k + 1)).sum = countAtMost values bounds[k] := by
  rw [sum_take_histogram bounds values (by omega), countAtMost]
  simp only [bucketOf_lt_succ_iff sorted within]

/-- The running sum over a histogram reaches a target at the first bound that so
many values do not exceed, or above all bounds. -/
theorem getD_rankBucket_histogram (target : Nat) (values : List α) (above : α) :
    bounds.getD (rankBucket target 0 (histogram bounds values)) above =
      (bounds.find? fun bound => target ≤ countAtMost values bound).getD above := by
  have length : (histogram bounds values).length = bounds.length + 1 := length_histogram ..
  have later : ∀ left k, left + k = bounds.length →
      (bounds.drop k).getD (rankBucket target ((histogram bounds values).take k).sum
        ((histogram bounds values).drop k)) above =
      ((bounds.drop k).find? fun bound => target ≤ countAtMost values bound).getD above := by
    intro left
    induction left with
    | zero =>
        intro k isEnd
        rw [List.drop_eq_nil_of_le (by omega)]
        rfl
    | succ left ih =>
        intro k isLeft
        have within : k < bounds.length := by omega
        have withinCounts : k < (histogram bounds values).length := by omega
        rw [List.drop_eq_getElem_cons within, List.drop_eq_getElem_cons withinCounts, rankBucket,
          ← List.sum_take_succ _ _ withinCounts, sum_take_succ_histogram sorted within,
          List.find?_cons]
        by_cases reached : target ≤ countAtMost values bounds[k]
        · rw [if_pos reached, decide_eq_true reached]
          rfl
        · rw [if_neg reached, decide_eq_false reached, ← ih (k + 1) (by omega),
            sum_take_succ_histogram sorted within]
          rfl
  have fromStart := later bounds.length 0 rfl
  simpa using fromStart

/-- The first bound with one property is the first with a stronger one, which
larger bounds keep, exactly when the two properties agree on every bound. -/
theorem getD_find?_eq_iff {lower higher : α → Bool} {above : α}
    (upward : ∀ bound bound', bound < bound' → higher bound = true → higher bound' = true)
    (stronger : ∀ bound, higher bound = true → lower bound = true)
    (reached : ∃ bound ∈ bounds, higher bound = true) :
    (bounds.find? lower).getD above = (bounds.find? higher).getD above ↔
      ∀ bound ∈ bounds, lower bound = true → higher bound = true := by
  induction bounds with
  | nil =>
      obtain ⟨_, member, _⟩ := reached
      cases member
  | cons bound bounds ih =>
      obtain ⟨larger, sorted⟩ := List.pairwise_cons.mp sorted
      rw [List.forall_mem_cons, List.find?_cons, List.find?_cons]
      by_cases high : higher bound = true
      · rw [high, stronger bound high]
        exact iff_of_true rfl
          ⟨fun _ => rfl, fun bound' member _ => upward bound bound' (larger bound' member) high⟩
      · have later : ∃ bound' ∈ bounds, higher bound' = true := by
          obtain ⟨bound', member, isHigh⟩ := reached
          rcases List.mem_cons.mp member with rfl | inRest
          · exact absurd isHigh high
          · exact ⟨bound', inRest, isHigh⟩
        rw [Bool.eq_false_iff.mpr high]
        by_cases low : lower bound = true
        · rw [low]
          refine iff_of_false ?_ fun both => Bool.false_ne_true (both.1 rfl)
          intro same
          obtain ⟨first, found⟩ := Option.isSome_iff_exists.mp
            (List.find?_isSome.mpr later)
          rw [found] at same
          exact (larger first (List.mem_of_find?_eq_some found)).ne same
        · rw [Bool.eq_false_iff.mpr low, ih sorted later]
          exact ⟨fun agree => ⟨fun impossible => absurd impossible (by decide), agree⟩, And.right⟩

end Sorted

/-- More values are at most a larger bound. -/
theorem countAtMost_mono {values : List α} {bound bound' : α} (below : bound ≤ bound') :
    countAtMost values bound ≤ countAtMost values bound' :=
  List.countP_mono_left fun _ _ within => decide_eq_true ((of_decide_eq_true within).trans below)

/-- The element at a position of a sorted list does not exceed a bound exactly when
the position is one of the elements that do not. -/
theorem le_iff_of_sorted {list : List α} (sorted : list.Pairwise (· ≤ ·)) {k : Nat} {value : α}
    (found : list[k]? = some value) (bound : α) :
    value ≤ bound ↔ k < countAtMost list bound := by
  induction list generalizing k with
  | nil => cases found
  | cons first list ih =>
      obtain ⟨larger, sorted⟩ := List.pairwise_cons.mp sorted
      rw [countAtMost, List.countP_cons, ← countAtMost]
      by_cases below : first ≤ bound
      · rw [if_pos (decide_eq_true below)]
        cases k with
        | zero =>
            cases found
            exact iff_of_true below (Nat.succ_pos _)
        | succ k => rw [Nat.succ_lt_succ_iff, ih sorted found]
      · have none : countAtMost list bound = 0 :=
          List.countP_eq_zero.mpr fun other member within =>
            below ((larger other member).trans (of_decide_eq_true within))
        rw [if_neg (by simpa using below), none]
        refine iff_of_false ?_ (Nat.not_lt_zero _)
        cases k with
        | zero =>
            cases found
            exact below
        | succ k =>
            intro within
            exact below ((larger value (List.mem_of_getElem? found)).trans within)

/-- The element at a position of a sorted list, by the list before it was sorted. -/
theorem le_iff_of_mergeSort {values : List α} {k : Nat} {value : α}
    (found : (values.mergeSort)[k]? = some value) (bound : α) :
    value ≤ bound ↔ k < countAtMost values bound := by
  have same : countAtMost values.mergeSort bound = countAtMost values bound :=
    (List.mergeSort_perm values _).countP_eq _
  rw [← same]
  refine le_iff_of_sorted ?_ found bound
  have sorted : values.mergeSort.Pairwise fun a b => decide (a ≤ b) = true :=
    List.pairwise_mergeSort
      (fun a b c ab bc => decide_eq_true ((of_decide_eq_true ab).trans (of_decide_eq_true bc)))
      (fun a b => by simpa using le_total a b) values
  simpa using sorted

end Restitch.Std
