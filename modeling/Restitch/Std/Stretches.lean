import Mathlib.Algebra.GroupWithZero.Nat
import Mathlib.Data.List.Basic

/-!
# Stretches of equal elements

A list is cut into its longest stretches of successive equal elements. A counter that starts
anew whenever the element changes, and stops at a cap, counts every stretch up to the cap.
-/

namespace Restitch.Std

universe u

variable {α : Type u} [DecidableEq α]

/-- Add an element behind some stretches, the last one in front, each with its length. -/
def extendStretches : List (α × Nat) → α → List (α × Nat)
  | [], element => [(element, 1)]
  | (last, length) :: earlier, element =>
      if last = element then (last, length + 1) :: earlier
      else (element, 1) :: (last, length) :: earlier

/-- The stretches of a list, the last one in front. -/
def stretches (list : List α) : List (α × Nat) := list.foldl extendStretches []

/-- The length of the last stretch, if it is one of this element. -/
def currentLength : List (α × Nat) → α → Nat
  | [], _ => 0
  | (last, length) :: _, element => if last = element then length else 0

/-- What a counter with a cap counts for an element over all of its stretches. -/
def cappedTotal (cap : Nat) (parts : List (α × Nat)) (element : α) : Nat :=
  ((parts.filter fun part => part.1 = element).map fun part => min part.2 cap).sum

/-- The last element extends the last stretch or begins one. -/
theorem stretches_concat (list : List α) (element : α) :
    stretches (list ++ [element]) = extendStretches (stretches list) element := by
  rw [stretches, List.foldl_append]
  rfl

/-- The current stretch grows with an equal element and starts again with another one. -/
theorem currentLength_extend (parts : List (α × Nat)) (element other : α) :
    currentLength (extendStretches parts element) other =
      if element = other then currentLength parts element + 1 else 0 := by
  cases parts with
  | nil => simp [extendStretches, currentLength]
  | cons part earlier =>
      obtain ⟨last, length⟩ := part
      rw [extendStretches]
      by_cases same : last = element
      · subst same
        simp [currentLength]
      · simp [currentLength, same]

/-- One more element counts for itself as long as its stretch is below the cap. -/
theorem cappedTotal_extend {cap : Nat} (positive : 0 < cap) (parts : List (α × Nat))
    (element other : α) :
    cappedTotal cap (extendStretches parts element) other =
      cappedTotal cap parts other +
        if element = other ∧ currentLength parts element < cap then 1 else 0 := by
  cases parts with
  | nil =>
      by_cases same : element = other
      · simp [extendStretches, cappedTotal, currentLength, same, positive]
        omega
      · simp [extendStretches, cappedTotal, same]
  | cons part earlier =>
      obtain ⟨last, length⟩ := part
      rw [extendStretches, currentLength]
      by_cases continued : last = element
      · subst continued
        rw [if_pos rfl, if_pos rfl]
        by_cases same : last = other
        · simp only [cappedTotal, same, decide_true, List.filter_cons_of_pos, List.map_cons,
            List.sum_cons, true_and]
          split <;> omega
        · simp [cappedTotal, same]
      · rw [if_neg continued, if_neg continued]
        by_cases same : element = other
        · simp only [cappedTotal, same, decide_true, List.filter_cons_of_pos, List.map_cons,
            List.sum_cons, true_and, positive, if_true]
          omega
        · simp [cappedTotal, same]

end Restitch.Std
