import Mathlib.Data.List.Induction
import Restitch.Std.KeyedParts

/-!
# The history of a table

A table that was empty once holds what the statements so far left in it: a row is there if
it was written, and since then neither its key was written again nor a deletion met it.
-/

namespace Restitch.Std.KeyedTable

universe u v

/-- A statement that changes a table. -/
inductive TableWrite (Row : Type u) where
  /-- Insert a row, or replace the one with its key. -/
  | put (row : Row)
  /-- Delete the rows that do not meet a condition. -/
  | keep (condition : Row → Bool)

variable {Row : Type u} {Key : Type v} [DecidableEq Key] (key : Row → Key)

def TableWrite.run (rows : List Row) : TableWrite Row → List Row
  | .put row => upsert key rows row
  | .keep condition => rows.filter condition

/-- A statement leaves a row in the table. -/
def TableWrite.Spares (row : Row) : TableWrite Row → Prop
  | .put other => key other ≠ key row
  | .keep condition => condition row = true

variable {key}

/-- Storing a row keeps the keys unique. -/
theorem Unique.upsert {rows : List Row} (unique : Unique key rows) (row : Row) :
    Unique key (upsert key rows row) := by
  refine (unique.filter _).append fun other member => ?_
  simpa using (List.mem_filter.mp member).2

/-- A write keeps the keys unique. -/
theorem Unique.run {rows : List Row} (unique : Unique key rows) (write : TableWrite Row) :
    Unique key (write.run key rows) := by
  cases write with
  | put row => exact unique.upsert row
  | keep condition => exact unique.filter condition

/-- After a write the table has the row put and the rows it spares. -/
theorem mem_run {rows : List Row} {write : TableWrite Row} {row : Row} :
    row ∈ write.run key rows ↔ write = .put row ∨ row ∈ rows ∧ write.Spares key row := by
  cases write with
  | put other =>
      simp only [TableWrite.run, upsert, List.mem_append, List.mem_filter, List.mem_singleton,
        decide_eq_true_eq, TableWrite.put.injEq, TableWrite.Spares]
      constructor
      · rintro (⟨member, apart⟩ | rfl)
        · exact .inr ⟨member, Ne.symm apart⟩
        · exact .inl rfl
      · rintro (rfl | ⟨member, apart⟩)
        · exact .inr rfl
        · exact .inl ⟨member, Ne.symm apart⟩
  | keep condition => simp [TableWrite.run, TableWrite.Spares]

/-- A history of writes keeps the keys unique. -/
theorem Unique.foldl_run {rows : List Row} (unique : Unique key rows)
    (writes : List (TableWrite Row)) : Unique key (writes.foldl (TableWrite.run key) rows) := by
  induction writes generalizing rows with
  | nil => exact unique
  | cons write rest ih => exact ih (unique.run write)

variable (key) in
/-- A row was written, and every statement since then left it there. -/
def LastWritten (writes : List (TableWrite Row)) (row : Row) : Prop :=
  ∃ before after, writes = before ++ .put row :: after ∧ ∀ write ∈ after, write.Spares key row

omit [DecidableEq Key] in
/-- A row is the last written one if the last write put it, or spared it. -/
theorem lastWritten_concat {writes : List (TableWrite Row)} {write : TableWrite Row} {row : Row} :
    LastWritten key (writes ++ [write]) row ↔
      write = .put row ∨ LastWritten key writes row ∧ write.Spares key row := by
  constructor
  · rintro ⟨before, after, same, spared⟩
    rcases List.eq_nil_or_concat after with rfl | ⟨earlier, last, rfl⟩
    · exact .inl (List.singleton_inj.mp (List.append_inj' same rfl).2)
    · rw [List.concat_eq_append] at same spared
      have regrouped : writes ++ [write] = (before ++ .put row :: earlier) ++ [last] := by
        rw [same, List.append_assoc, List.cons_append]
      obtain ⟨rfl, isLast⟩ := List.append_inj' regrouped rfl
      cases List.singleton_inj.mp isLast
      exact .inr ⟨⟨before, earlier, rfl, fun other member =>
        spared other (List.mem_append_left _ member)⟩, spared write (by simp)⟩
  · rintro (rfl | ⟨⟨before, after, rfl, spared⟩, spares⟩)
    · exact ⟨writes, [], rfl, nofun⟩
    · refine ⟨before, after ++ [write], by simp, fun other member => ?_⟩
      rcases List.mem_append.mp member with earlier | last
      · exact spared other earlier
      · rwa [List.mem_singleton.mp last]

/-- A row is in the table if it was written and spared since, or was there and always spared. -/
theorem mem_foldl_run {rows : List Row} {writes : List (TableWrite Row)} {row : Row} :
    row ∈ writes.foldl (TableWrite.run key) rows ↔
      LastWritten key writes row ∨ row ∈ rows ∧ ∀ write ∈ writes, write.Spares key row := by
  induction writes using List.reverseRecOn with
  | nil => simp [LastWritten]
  | append_singleton writes write ih =>
      rw [List.foldl_concat, mem_run, ih, lastWritten_concat]
      simp only [List.mem_append, List.mem_singleton, or_imp, forall_and,
        forall_eq]
      tauto

end Restitch.Std.KeyedTable
