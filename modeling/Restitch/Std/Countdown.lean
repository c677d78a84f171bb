import Mathlib.Data.List.Count
import Mathlib.Data.List.Nodup
import Mathlib.Logic.Function.Basic

/-!
# Counting a family of counters down

A worklist algorithm keeps one counter per item, lowers it once per visit and
releases the item when its counter reaches zero. `run_counter` and
`run_released` say what a whole list of visits does, whatever its order.
-/

namespace Restitch.Std.Countdown

universe u

variable {α : Type u} [DecidableEq α]

/-- The counters and the items released so far. -/
abbrev State (α : Type u) := (α → Int) × List α

/-- Lower the counter of one item and release the item if that makes it zero. -/
def visit (state : State α) (item : α) : State α :=
  let counters := Function.update state.1 item (state.1 item - 1)
  if counters item = 0 then (counters, state.2 ++ [item]) else (counters, state.2)

/-- Visit every item of a list in order. -/
def run (state : State α) (visits : List α) : State α :=
  visits.foldl visit state

@[simp] theorem run_nil (state : State α) : run state [] = state := rfl

@[simp] theorem run_cons (state : State α) (item : α) (rest : List α) :
    run state (item :: rest) = run (visit state item) rest := rfl

/-- Items are visited one part after the other. -/
theorem run_append (state : State α) (first second : List α) :
    run state (first ++ second) = run (run state first) second :=
  List.foldl_append

/-- A visit counts one item down. -/
@[simp] theorem visit_counters (state : State α) (item : α) :
    (visit state item).1 = Function.update state.1 item (state.1 item - 1) := by
  simp only [visit]
  split <;> rfl

/-- Each counter ends lower by the number of its visits. -/
theorem run_counter (state : State α) (visits : List α) (item : α) :
    (run state visits).1 item = state.1 item - visits.count item := by
  induction visits generalizing state with
  | nil => simp
  | cons head rest ih =>
      rw [run_cons, ih, visit_counters]
      by_cases same : item = head
      · subst head
        simp only [Function.update_self, List.count_cons_self]
        omega
      · rw [Function.update_of_ne same, List.count_cons_of_ne (Ne.symm same)]

/-- When no counter is visited below zero, the visits release, once each and
after what was released before, exactly the visited items whose counter they
exhaust. -/
theorem run_released (state : State α) (visits : List α)
    (enough : ∀ item, (visits.count item : Int) ≤ state.1 item) :
    ∃ released, (run state visits).2 = state.2 ++ released ∧ released.Nodup ∧
      ∀ item, item ∈ released ↔ item ∈ visits ∧ state.1 item = visits.count item := by
  induction visits generalizing state with
  | nil => exact ⟨[], by simp⟩
  | cons head rest ih =>
      have restEnough : ∀ item, (rest.count item : Int) ≤ (visit state head).1 item := by
        intro item
        have bound := enough item
        rw [visit_counters]
        by_cases same : item = head
        · subst head
          rw [List.count_cons_self] at bound
          rw [Function.update_self]
          omega
        · rw [List.count_cons_of_ne (Ne.symm same)] at bound
          rwa [Function.update_of_ne same]
      obtain ⟨released, ends, once, member⟩ := ih (visit state head) restEnough
      have memberOther : ∀ item, item ≠ head →
          (item ∈ released ↔ item ∈ head :: rest ∧ state.1 item = (head :: rest).count item) := by
        intro item different
        rw [member item, visit_counters, Function.update_of_ne different,
          List.count_cons_of_ne (Ne.symm different)]
        simp [different]
      have memberHead : head ∈ released ↔ head ∈ rest ∧ state.1 head - 1 = rest.count head := by
        rw [member head, visit_counters, Function.update_self]
      have headBound := restEnough head
      rw [visit_counters, Function.update_self] at headBound
      by_cases exhausted : state.1 head - 1 = 0
      · -- This visit releases the head, which therefore occurs no more.
        have absent : head ∉ rest := by
          rw [← List.count_eq_zero]
          omega
        refine ⟨head :: released, ?_, ?_, ?_⟩
        · rw [run_cons, ends]
          simp [visit, exhausted]
        · exact List.nodup_cons.mpr ⟨fun found => absent (memberHead.mp found).1, once⟩
        · intro item
          by_cases same : item = head
          · subst item
            have zero : rest.count head = 0 := List.count_eq_zero.mpr absent
            simp [zero]
            omega
          · rw [List.mem_cons, memberOther item same]
            simp [same]
      · refine ⟨released, ?_, once, ?_⟩
        · rw [run_cons, ends]
          simp [visit, exhausted]
        · intro item
          by_cases same : item = head
          · subst item
            rw [memberHead]
            constructor
            · rintro ⟨_, equal⟩
              refine ⟨List.mem_cons_self, ?_⟩
              rw [List.count_cons_self]
              omega
            · rintro ⟨_, equal⟩
              rw [List.count_cons_self] at equal
              refine ⟨List.count_pos_iff.mp ?_, by omega⟩
              omega
          · exact memberOther item same

end Restitch.Std.Countdown
