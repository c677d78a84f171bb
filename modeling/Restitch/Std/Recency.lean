import Mathlib.Data.List.Dedup
import Mathlib.Data.List.Induction

/-!
# Order of last use

The elements of a history from the one used last to the one used first, each at its last
use. A table that holds as many of them as fit is kept up to date by moving the element that
is used to the front and forgetting what no longer fits.
-/

namespace Restitch.Std

universe u

variable {α : Type u} [DecidableEq α]

/-- The elements of a history, the one used last in front. -/
def recent (uses : List α) : List α := uses.dedup.reverse

/-- Use an element of a table of some size. -/
def touch (size : Nat) (table : List α) (element : α) : List α :=
  (element :: table.filter (· ≠ element)).take size

/-- Every element is listed once. -/
theorem nodup_recent (uses : List α) : (recent uses).Nodup :=
  List.nodup_reverse.mpr (List.nodup_dedup uses)

/-- The elements listed are those used. -/
@[simp] theorem mem_recent {uses : List α} {element : α} :
    element ∈ recent uses ↔ element ∈ uses := by
  rw [recent, List.mem_reverse, List.mem_dedup]

/-- The list is as long as there are different elements. -/
@[simp] theorem length_recent (uses : List α) : (recent uses).length = uses.dedup.length :=
  List.length_reverse

/-- A use moves its element to the end. -/
theorem dedup_concat (uses : List α) (element : α) :
    (uses ++ [element]).dedup = uses.dedup.filter (· ≠ element) ++ [element] := by
  induction uses with
  | nil => simp
  | cons first rest ih =>
      rw [List.cons_append]
      by_cases again : first ∈ rest
      · rw [List.dedup_cons_of_mem (List.mem_append_left _ again), ih,
          List.dedup_cons_of_mem again]
      · rw [List.dedup_cons_of_notMem again]
        by_cases same : first = element
        · subst same
          rw [List.dedup_cons_of_mem (List.mem_append_right _ List.mem_cons_self), ih,
            List.filter_cons_of_neg (by simp)]
        · have absent : first ∉ rest ++ [element] := by
            rw [List.mem_append, List.mem_singleton]
            exact not_or.mpr ⟨again, same⟩
          rw [List.dedup_cons_of_notMem absent, ih, List.filter_cons_of_pos (by simpa using same)]
          rfl

/-- Using an element moves it to the front. -/
theorem recent_concat (uses : List α) (element : α) :
    recent (uses ++ [element]) = element :: (recent uses).filter (· ≠ element) := by
  rw [recent, dedup_concat, List.reverse_append, recent, List.filter_reverse]
  rfl

/-- Later uses are in front of the earlier ones that they do not repeat. -/
theorem recent_append (earlier later : List α) :
    recent (earlier ++ later) = recent later ++ (recent earlier).filter (· ∉ later) := by
  induction later using List.reverseRecOn with
  | nil =>
      rw [List.append_nil]
      simp [recent]
  | append_singleton later element ih =>
      rw [← List.append_assoc, recent_concat, ih, recent_concat, List.filter_append,
        List.filter_filter, List.cons_append]
      congr 2
      refine List.filter_congr fun other _ => ?_
      simp [and_comm, not_or]

/-- A filter that drops one element needs one element more. -/
theorem take_filter_take {list : List α} (unique : list.Nodup) (element : α) (size : Nat) :
    ((list.take (size + 1)).filter (· ≠ element)).take size =
      (list.filter (· ≠ element)).take size := by
  induction list generalizing size with
  | nil => rfl
  | cons first rest ih =>
      obtain ⟨fresh, restUnique⟩ := List.nodup_cons.mp unique
      rw [List.take_succ_cons]
      by_cases same : first = element
      · subst same
        have kept : ∀ part : List α, part ⊆ rest → part.filter (· ≠ first) = part := by
          intro part within
          refine List.filter_eq_self.mpr fun other member => ?_
          have different : other ≠ first := fun same => fresh (same ▸ within member)
          exact decide_eq_true different
        rw [List.filter_cons_of_neg (by simp), List.filter_cons_of_neg (by simp),
          kept _ (List.take_subset size rest), kept _ (List.Subset.refl rest), List.take_take,
          Nat.min_self]
      · rw [List.filter_cons_of_pos (by simpa using same),
          List.filter_cons_of_pos (by simpa using same)]
        cases size with
        | zero => rfl
        | succ size => rw [List.take_succ_cons, List.take_succ_cons, ih restUnique]

/-- A table of the most recent elements stays one. -/
theorem touch_take_recent {size : Nat} (room : 0 < size) (uses : List α) (element : α) :
    touch size ((recent uses).take size) element = (recent (uses ++ [element])).take size := by
  obtain ⟨rest, rfl⟩ := Nat.exists_eq_add_one_of_ne_zero (Nat.ne_of_gt room)
  rw [touch, recent_concat, List.take_succ_cons, List.take_succ_cons,
    take_filter_take (nodup_recent uses)]

/-- An element is among the most recent ones as long as fewer others were used since. -/
theorem mem_take_recent_iff {size : Nat} {element : α} (earlier : List α) {later : List α}
    (since : element ∉ later) :
    element ∈ (recent (earlier ++ element :: later)).take size ↔ later.dedup.length < size := by
  have split_ : earlier ++ element :: later = (earlier ++ [element]) ++ later := by simp
  have front : (recent (earlier ++ [element])).filter (· ∉ later) =
      element :: ((recent earlier).filter (· ≠ element)).filter (· ∉ later) := by
    rw [recent_concat, List.filter_cons_of_pos (by simpa using since)]
  rw [split_, recent_append, front, ← length_recent]
  constructor
  · intro member
    by_contra full
    rw [List.take_append_of_le_length (Nat.le_of_not_lt full)] at member
    exact since (mem_recent.mp (List.mem_of_mem_take member))
  · intro fits
    refine List.mem_take_iff_getElem.mpr ⟨(recent later).length, ?_, ?_⟩
    · rw [List.length_append, List.length_cons]
      omega
    · simp

end Restitch.Std
