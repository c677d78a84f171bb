import Restitch.Std.KeyedTable

/-!
# Tables with a primary key, part by part

A column that the primary key determines splits a table into parts. A statement about one
key does to its part what it would do to that part alone, and nothing to the others.
-/

namespace Restitch.Std.KeyedTable

universe u v w

section Unique

variable {Row : Type u} {Key : Type v} {key : Row → Key} {rows : List Row}

/-- Two rows with one key are one row. -/
theorem Unique.eq_of_key (unique : Unique key rows) {first second : Row}
    (isFirst : first ∈ rows) (isSecond : second ∈ rows) (same : key first = key second) :
    first = second := by
  have apart := (List.pairwise_iff_getElem.mp unique)
  obtain ⟨i, small, rfl⟩ := List.getElem_of_mem isFirst
  obtain ⟨j, small', rfl⟩ := List.getElem_of_mem isSecond
  rcases Nat.lt_trichotomy i j with before | rfl | after
  · exact absurd same (apart i j small small' before)
  · rfl
  · exact absurd same.symm (apart j i small' small after)

/-- An update that keeps the key. -/
theorem Unique.map (unique : Unique key rows) {update : Row → Row}
    (key_update : ∀ row, key (update row) = key row) : Unique key (rows.map update) := by
  refine List.pairwise_map.mpr (List.Pairwise.imp ?_ unique)
  intro first second apart
  rwa [key_update, key_update]

/-- A row with a new key. -/
theorem Unique.append (unique : Unique key rows) {row : Row}
    (new : ∀ other ∈ rows, key other ≠ key row) : Unique key (rows ++ [row]) := by
  refine List.pairwise_append.mpr ⟨unique, List.pairwise_singleton _ _, ?_⟩
  intro other member last isLast
  cases List.mem_singleton.mp isLast
  exact new other member

end Unique

variable {Row : Type u} {Key : Type v} {Part : Type w} [DecidableEq Key] [DecidableEq Part]

/-- `INSERT ... ON CONFLICT DO UPDATE` of some columns. -/
def upsertWith (key : Row → Key) (row : Row) (update : Row → Row) (rows : List Row) : List Row :=
  if ∃ other ∈ rows, key other = key row then
    rows.map fun other => if key other = key row then update other else other
  else rows ++ [row]

/-- An update that keeps the key keeps the keys unique. -/
theorem Unique.upsertWith {key : Row → Key} {row : Row} {rows : List Row} {update : Row → Row}
    (unique : Unique key rows) (key_update : ∀ row, key (update row) = key row) :
    Unique key (upsertWith key row update rows) := by
  unfold KeyedTable.upsertWith
  split
  · refine unique.map fun other => ?_
    split
    · exact key_update other
    · rfl
  · rename_i free
    exact unique.append fun other member same => free ⟨other, member, same⟩

/-- `WHERE column = ?`. -/
def inPart (column : Row → Part) (part : Part) (rows : List Row) : List Row :=
  rows.filter fun row => column row = part

variable {key : Row → Key} {column : Row → Part} {part : Part}

@[simp] theorem mem_inPart {row : Row} {rows : List Row} :
    row ∈ inPart column part rows ↔ row ∈ rows ∧ column row = part := by
  simp [inPart]

/-- The rows of a part are those of both tables. -/
@[simp] theorem inPart_append (rows more : List Row) :
    inPart column part (rows ++ more) = inPart column part rows ++ inPart column part more :=
  List.filter_append ..

theorem inPart_singleton (row : Row) :
    inPart column part [row] = if column row = part then [row] else [] := by
  simp [inPart, List.filter_singleton]

@[simp] theorem inPart_inPart (rows : List Row) :
    inPart column part (inPart column part rows) = inPart column part rows := by
  simp [inPart]

/-- A deletion and a part commute. -/
theorem inPart_filter (keep : Row → Bool) (rows : List Row) :
    inPart column part (rows.filter keep) = (inPart column part rows).filter keep := by
  simp only [inPart, List.filter_filter]
  exact List.filter_congr fun row _ => Bool.and_comm ..

/-- A deletion that spares a part. -/
theorem inPart_filter_of_keep {keep : Row → Bool} (rows : List Row)
    (kept : ∀ row, column row = part → keep row = true) :
    inPart column part (rows.filter keep) = inPart column part rows := by
  rw [inPart_filter, List.filter_eq_self]
  exact fun row member => kept row (mem_inPart.mp member).2

/-- An update of rows that leaves the column alone. -/
theorem inPart_map {update : Row → Row} (rows : List Row)
    (column_update : ∀ row, column (update row) = column row) :
    inPart column part (rows.map update) = (inPart column part rows).map update := by
  simp only [inPart, List.filter_map, Function.comp_def, column_update]

/-- An update of rows outside a part. -/
theorem inPart_map_of_ne {update : Row → Row} (rows : List Row)
    (column_update : ∀ row, column (update row) = column row)
    (spared : ∀ row ∈ rows, column row = part → update row = row) :
    inPart column part (rows.map update) = inPart column part rows := by
  rw [inPart_map rows column_update]
  have same : (inPart column part rows).map update = (inPart column part rows).map id :=
    List.map_congr_left fun row member =>
      spared row (mem_inPart.mp member).1 (mem_inPart.mp member).2
  rw [same, List.map_id]

/-- A loop whose body keeps to a part. -/
theorem inPart_foldl {Item : Type*} {body : List Row → Item → List Row} (items : List Item)
    (rows : List Row)
    (each : ∀ rows item, inPart column part (body rows item) =
      body (inPart column part rows) item) :
    inPart column part (items.foldl body rows) = items.foldl body (inPart column part rows) :=
  (List.foldl_hom (inPart column part) fun rows item => (each rows item).symm).symm

/-- A loop whose body spares a part. -/
theorem inPart_foldl_of_ne {Item : Type*} {body : List Row → Item → List Row} (items : List Item)
    (rows : List Row)
    (each : ∀ rows item, inPart column part (body rows item) = inPart column part rows) :
    inPart column part (items.foldl body rows) = inPart column part rows := by
  induction items generalizing rows with
  | nil => rfl
  | cons item rest ih => rw [List.foldl_cons, ih, each]

/-- A lookup whose hits are all in one part. -/
theorem find?_inPart {rows : List Row} {meets : Row → Bool}
    (together : ∀ first ∈ rows, ∀ second ∈ rows, meets first = true → meets second = true →
      column first = column second) :
    (inPart column part rows).find? meets = (rows.find? meets).filter (column · = part) := by
  induction rows with
  | nil => rfl
  | cons first rest ih =>
      have later := ih fun a isA b isB =>
        together a (List.mem_cons_of_mem _ isA) b (List.mem_cons_of_mem _ isB)
      by_cases here : column first = part
      · have kept : inPart column part (first :: rest) = first :: inPart column part rest := by
          simp [inPart, here]
        rw [kept, List.find?_cons, List.find?_cons, later]
        split
        · simp [Option.filter, here]
        · rfl
      · have dropped : inPart column part (first :: rest) = inPart column part rest := by
          simp [inPart, here]
        rw [dropped, List.find?_cons]
        split
        · rename_i hit
          have none_ : (inPart column part rest).find? meets = none := by
            refine List.find?_eq_none.mpr fun row member meets_row => here ?_
            obtain ⟨inRest, there⟩ := mem_inPart.mp member
            rw [← there]
            exact together first List.mem_cons_self row (List.mem_cons_of_mem _ inRest) hit meets_row
          simp [none_, Option.filter, here]
        · exact later

section Insertions

variable (determines : ∀ first second : Row, key first = key second → column first = column second)

include determines

omit [DecidableEq Key] in
/-- The rows with a key are in one part. -/
theorem exists_key_inPart {row : Row} {rows : List Row} (here : column row = part) :
    (∃ other ∈ inPart column part rows, key other = key row) ↔
      ∃ other ∈ rows, key other = key row := by
  constructor
  · rintro ⟨other, member, same⟩
    exact ⟨other, (mem_inPart.mp member).1, same⟩
  · rintro ⟨other, member, same⟩
    exact ⟨other, mem_inPart.mpr ⟨member, (determines other row same).trans here⟩, same⟩

/-- A new row is inserted into its own part and leaves the other ones. -/
theorem inPart_insertNew (row : Row) (rows : List Row) :
    inPart column part (insertNew key row rows) =
      if column row = part then insertNew key row (inPart column part rows)
      else inPart column part rows := by
  split
  · rename_i here
    simp only [insertNew, exists_key_inPart determines here]
    split
    · rfl
    · rw [inPart_append, inPart_singleton, if_pos here]
  · rename_i elsewhere
    unfold insertNew
    split
    · rfl
    · rw [inPart_append, inPart_singleton, if_neg elsewhere, List.append_nil]

/-- A row is stored in its own part and leaves the other ones. -/
theorem inPart_upsert (row : Row) (rows : List Row) :
    inPart column part (upsert key rows row) =
      if column row = part then upsert key (inPart column part rows) row
      else inPart column part rows := by
  unfold upsert
  rw [inPart_append, inPart_singleton]
  split
  · rw [inPart_filter]
  · rename_i elsewhere
    rw [List.append_nil]
    refine inPart_filter_of_keep rows fun other here => decide_eq_true fun same => elsewhere ?_
    rw [← determines other row same, here]

/-- An update of one row is one of its own part and leaves the other ones. -/
theorem inPart_upsertWith {update : Row → Row}
    (column_update : ∀ row, column (update row) = column row) (row : Row) (rows : List Row) :
    inPart column part (upsertWith key row update rows) =
      if column row = part then upsertWith key row update (inPart column part rows)
      else inPart column part rows := by
  have aligned : ∀ other, column (if key other = key row then update other else other) =
      column other := by
    intro other
    split
    · exact column_update other
    · rfl
  split
  · rename_i here
    simp only [upsertWith, exists_key_inPart determines here]
    split
    · exact inPart_map rows aligned
    · rw [inPart_append, inPart_singleton, if_pos here]
  · rename_i elsewhere
    unfold upsertWith
    split
    · refine inPart_map_of_ne rows aligned fun other _ here => if_neg fun same => elsewhere ?_
      rw [← determines other row same, here]
    · rw [inPart_append, inPart_singleton, if_neg elsewhere, List.append_nil]

end Insertions

end Restitch.Std.KeyedTable
