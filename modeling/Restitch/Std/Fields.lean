import Mathlib.Data.List.Forall2

/-!
# Objects as lists of fields

The fields of an object in their order. A lookup finds the first field of a name.
-/

namespace Restitch.Std

universe u v

variable {κ : Type u} {ν : Type v} [DecidableEq κ]

/-- Assignment: a field keeps its place, and a new one comes last. -/
def setField (key : κ) (value : ν) : List (κ × ν) → List (κ × ν)
  | [] => [(key, value)]
  | field :: rest =>
      if field.1 = key then (key, value) :: rest else field :: setField key value rest

/-- Deletion. -/
def removeField (key : κ) (fields : List (κ × ν)) : List (κ × ν) :=
  fields.filter (·.1 ≠ key)

/-- The first field with the key is found. -/
theorem lookup_cons_eq_ite (key : κ) (field : κ × ν) (rest : List (κ × ν)) :
    (field :: rest).lookup key = if key = field.1 then some field.2 else rest.lookup key := by
  rw [List.lookup_cons]
  split
  · next same => rw [if_pos (beq_iff_eq.mp same)]
  · next other => rw [if_neg (beq_eq_false_iff_ne.mp other)]

/-- Two lists of fields with the same names, related value by value, are related in every
lookup. -/
theorem lookup_of_forall₂ {μ : Type v} {R : ν → μ → Prop} {first : List (κ × ν)}
    {second : List (κ × μ)}
    (related : List.Forall₂ (fun a b => a.1 = b.1 ∧ R a.2 b.2) first second) (key : κ) :
    Option.Rel R (first.lookup key) (second.lookup key) := by
  induction related with
  | nil => exact .none
  | @cons field other rest rest' here _ ih =>
      rw [lookup_cons_eq_ite, lookup_cons_eq_ite, here.1]
      split
      · exact .some here.2
      · exact ih

/-- A field that was set has its value, and the others have theirs. -/
theorem lookup_setField (key other : κ) (value : ν) (fields : List (κ × ν)) :
    (setField key value fields).lookup other =
      if other = key then some value else fields.lookup other := by
  induction fields with
  | nil => exact lookup_cons_eq_ite other (key, value) []
  | cons field rest ih =>
      rw [setField]
      split
      · next same =>
          rw [lookup_cons_eq_ite, lookup_cons_eq_ite, same]
          split <;> rfl
      · next different =>
          rw [lookup_cons_eq_ite, lookup_cons_eq_ite, ih]
          by_cases here : other = field.1
          · rw [if_pos here, if_neg (here ▸ different), if_pos here]
          · rw [if_neg here, if_neg here]

/-- A field that was removed is gone, and the others have their values. -/
theorem lookup_removeField (key other : κ) (fields : List (κ × ν)) :
    (removeField key fields).lookup other =
      if other = key then none else fields.lookup other := by
  induction fields with
  | nil => exact (ite_self none).symm
  | cons field rest ih =>
      rw [removeField] at ih
      rw [removeField, List.filter_cons, lookup_cons_eq_ite other field rest]
      by_cases same : field.1 = key
      · rw [if_neg (by simp [same]), ih, same]
        split <;> rfl
      · rw [if_pos (by simp [same]), lookup_cons_eq_ite, ih]
        by_cases here : other = field.1
        · rw [if_pos here, if_neg (here ▸ same), if_pos here]
        · rw [if_neg here, if_neg here]

/-- Assignment to a field that is there keeps the names. -/
theorem map_fst_setField {key : κ} {value old : ν} {fields : List (κ × ν)}
    (present : fields.lookup key = some old) :
    (setField key value fields).map Prod.fst = fields.map Prod.fst := by
  induction fields with
  | nil => cases present
  | cons field rest ih =>
      rw [lookup_cons_eq_ite] at present
      rw [setField]
      split
      · next same => rw [List.map_cons, List.map_cons, same]
      · next different =>
          rw [if_neg (Ne.symm different)] at present
          rw [List.map_cons, List.map_cons, ih present]

end Restitch.Std
