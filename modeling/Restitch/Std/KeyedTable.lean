import Mathlib.Data.List.Nodup

/-!
# Tables with a primary key

A table is the list of its rows. An insertion that finds its key taken does nothing, or
replaces the row.
-/

namespace Restitch.Std.KeyedTable

universe u v

section Unique

variable {Row : Type u} {Key : Type v} (key : Row → Key)

/-- No two rows have the same key. -/
def Unique (rows : List Row) : Prop :=
  rows.Pairwise fun first second => key first ≠ key second

variable {key} {row : Row} {rows : List Row}

/-- Some of the rows have unique keys if all have. -/
theorem Unique.filter (unique : Unique key rows) (keep : Row → Bool) :
    Unique key (rows.filter keep) :=
  List.Pairwise.filter keep unique

/-- Unique keys stay unique in another order. -/
theorem Unique.perm {other : List Row} (unique : Unique key rows) (same : rows.Perm other) :
    Unique key other :=
  (same.pairwise_iff fun different => different.symm).mp unique

/-- The rows that meet a condition which determines the key are at most one. -/
theorem Unique.filter_eq_singleton (unique : Unique key rows) (member : row ∈ rows)
    {keep : Row → Bool} (meets : keep row = true)
    (determines : ∀ other ∈ rows, keep other = true → key other = key row) :
    rows.filter keep = [row] := by
  induction rows with
  | nil => cases member
  | cons first rest ih =>
      obtain ⟨apart, later⟩ := List.pairwise_cons.mp unique
      rcases List.mem_cons.mp member with same | after
      · subst same
        have none_ : rest.filter keep = [] := by
          rw [List.filter_eq_nil_iff]
          intro other isOther kept
          exact apart other isOther (determines other (List.mem_cons_of_mem _ isOther) kept).symm
        rw [List.filter_cons_of_pos meets, none_]
      · have dropped : ¬ keep first = true := by
          intro kept
          exact apart row after (determines first List.mem_cons_self kept)
        rw [List.filter_cons_of_neg dropped]
        exact ih later after fun other isOther => determines other (List.mem_cons_of_mem _ isOther)

end Unique

variable {Row : Type u} {Key : Type v} [DecidableEq Key] (key : Row → Key)

/-- `INSERT ... ON CONFLICT DO NOTHING`. -/
def insertNew (row : Row) (rows : List Row) : List Row :=
  if ∃ other ∈ rows, key other = key row then rows else rows ++ [row]

/-- `INSERT ... ON CONFLICT DO UPDATE` of all other columns. -/
def upsert (rows : List Row) (row : Row) : List Row :=
  rows.filter (fun other => key other ≠ key row) ++ [row]

variable {key} {row : Row} {rows : List Row}

/-- An insert keeps the rows that are there. -/
theorem mem_insertNew_of_mem {other : Row} (member : other ∈ rows) :
    other ∈ insertNew key row rows := by
  unfold insertNew
  split
  · exact member
  · exact List.mem_append_left _ member

/-- A row is there already, or is the new one. -/
theorem mem_of_mem_insertNew {other : Row} (member : other ∈ insertNew key row rows) :
    other ∈ rows ∨ other = row := by
  unfold insertNew at member
  split at member
  · exact .inl member
  · rcases List.mem_append.mp member with before | new
    · exact .inl before
    · exact .inr (List.mem_singleton.mp new)

variable (key row rows) in
/-- After an insertion the key is taken. -/
theorem exists_key_insertNew : ∃ other ∈ insertNew key row rows, key other = key row := by
  unfold insertNew
  split
  · assumption
  · exact ⟨row, List.mem_append_right _ (List.mem_singleton_self row), rfl⟩

/-- An insert that leaves a row with the same key keeps the keys unique. -/
theorem Unique.insertNew (unique : Unique key rows) : Unique key (insertNew key row rows) := by
  unfold KeyedTable.insertNew
  split
  · exact unique
  · rename_i free
    refine List.pairwise_append.mpr ⟨unique, List.pairwise_singleton _ _, ?_⟩
    intro first member second isNew
    cases List.mem_singleton.mp isNew
    exact fun same => free ⟨first, member, same⟩

/-- A row with a new key is added. -/
theorem upsert_of_new (new : ∀ other ∈ rows, key other ≠ key row) :
    upsert key rows row = rows ++ [row] := by
  rw [upsert, List.filter_eq_self.mpr fun other member => decide_eq_true (new other member)]

/-- A row that is there is replaced by itself. -/
theorem Unique.upsert_perm_of_mem (unique : Unique key rows) (member : row ∈ rows) :
    (upsert key rows row).Perm rows := by
  have own : rows.filter (fun other => !decide (key other ≠ key row)) = [row] := by
    refine unique.filter_eq_singleton member (by simp) ?_
    intro other _ kept
    simpa using kept
  rw [upsert, ← own]
  exact List.filter_append_perm _ rows

/-- Rows with new keys are all added. -/
theorem foldl_upsert_of_new {new : List Row} (unique : Unique key (rows ++ new)) :
    new.foldl (upsert key) rows = rows ++ new := by
  induction new generalizing rows with
  | nil => rw [List.foldl_nil, List.append_nil]
  | cons first rest ih =>
      have apart := (List.pairwise_append.mp unique).2.2
      rw [List.foldl_cons, upsert_of_new fun other member => apart other member first
        List.mem_cons_self]
      rw [List.append_cons rows first rest] at unique ⊢
      exact ih unique

/-- Rows that are all there change nothing. -/
theorem Unique.foldl_upsert_perm_of_subset {new : List Row} (unique : Unique key rows)
    (there : new ⊆ rows) : (new.foldl (upsert key) rows).Perm rows := by
  induction new generalizing rows with
  | nil => exact .refl rows
  | cons first rest ih =>
      have replaced := unique.upsert_perm_of_mem (there List.mem_cons_self)
      rw [List.foldl_cons]
      refine (ih (unique.perm replaced.symm) ?_).trans replaced
      intro row member
      exact replaced.symm.subset (there (List.mem_cons_of_mem _ member))

/-- Rows of which either all are there or none is are all there afterwards. -/
theorem foldl_upsert_perm {settled new : List Row} (unique : Unique key (settled ++ new))
    (stored : rows.Perm settled ∨ rows.Perm (settled ++ new)) :
    (new.foldl (upsert key) rows).Perm (settled ++ new) := by
  rcases stored with without | complete
  · have same := without.append_right new
    rw [foldl_upsert_of_new (unique.perm same.symm)]
    exact same
  · refine (Unique.foldl_upsert_perm_of_subset (unique.perm complete.symm) ?_).trans complete
    intro row member
    exact complete.symm.subset (List.mem_append_right _ member)

end Restitch.Std.KeyedTable
