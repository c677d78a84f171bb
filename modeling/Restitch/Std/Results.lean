import Mathlib.Data.List.Forall2

/-!
# Computations that may fail

The inversion of a bind of `Except`: a computation that succeeds did so in every
one of its parts, and one over a list in every element.
-/

namespace Restitch.Std

universe u v

variable {ε : Type u} {α β : Type v}

/-- A bind that succeeds has succeeded in both parts. -/
theorem Except.bind_eq_ok {first : Except ε α} {next : α → Except ε β} {result : β}
    (done : first >>= next = .ok result) :
    ∃ value, first = .ok value ∧ next value = .ok result := by
  cases first with
  | error error => cases done
  | ok value => exact ⟨value, rfl, done⟩

/-- A mapped result that is ok is the image of one. -/
theorem Except.map_eq_ok {f : α → β} {first : Except ε α} {result : β}
    (done : first.map f = .ok result) : ∃ value, first = .ok value ∧ f value = result := by
  cases first with
  | error error => cases done
  | ok value =>
      cases done
      exact ⟨value, rfl, rfl⟩

/-- A list is mapped to the results of its entries. -/
theorem Except.mapM_eq_ok_iff {f : α → Except ε β} {list : List α} {results : List β} :
    list.mapM f = .ok results ↔ List.Forall₂ (fun a result => f a = .ok result) list results := by
  induction list generalizing results with
  | nil =>
      rw [List.mapM_nil, List.forall₂_nil_left_iff]
      constructor
      · intro done
        cases done
        rfl
      · rintro rfl
        rfl
  | cons a rest ih =>
      rw [List.mapM_cons]
      constructor
      · intro done
        obtain ⟨result, isResult, done⟩ := Except.bind_eq_ok done
        obtain ⟨later, isLater, done⟩ := Except.bind_eq_ok done
        cases done
        exact .cons isResult (ih.mp isLater)
      · rintro (_ | ⟨isResult, later⟩)
        rw [isResult, ih.mpr later]
        rfl

/-- A list is not mapped exactly if one of its entries is not. -/
theorem Except.mapM_eq_error_iff {f : α → Except ε β} {list : List α} :
    (∃ error, list.mapM f = .error error) ↔ ∃ a ∈ list, ∃ error, f a = .error error := by
  induction list with
  | nil =>
      rw [List.mapM_nil]
      simp [pure, Except.pure]
  | cons a rest ih =>
      rw [List.mapM_cons, List.exists_mem_cons_iff, ← ih]
      cases f a with
      | error error => simp [bind, Except.bind]
      | ok result =>
          cases rest.mapM f <;> simp [bind, Except.bind, pure, Except.pure]

end Restitch.Std
