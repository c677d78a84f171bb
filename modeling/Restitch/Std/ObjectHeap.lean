import Mathlib.Data.List.Basic
import Mathlib.Logic.Relation

/-!
# A store of objects

Objects and arrays are cells of a store, and a value is a scalar, a reference to a
cell, or a mark. A mark stands for a value whose origin is of interest: which marks
a value shows is which marks are reached from it. Cells are never freed, so the
store grows at its end, and a field of an object may be written.
-/

namespace Restitch.Std

variable {Scalar Tag : Type}

/-- A value. -/
inductive Datum (Scalar Tag : Type) where
  | scalar (value : Scalar)
  | mark (tag : Tag)
  | ref (address : Nat)
deriving DecidableEq

/-- A cell of the store. -/
inductive Cell (Scalar Tag : Type) where
  | object (fields : List (String × Datum Scalar Tag))
  | array (items : List (Datum Scalar Tag))
deriving DecidableEq

/-- The values in a cell. -/
def Cell.data : Cell Scalar Tag → List (Datum Scalar Tag)
  | .object fields => fields.map Prod.snd
  | .array items => items

/-- A value whose references are moved up. -/
def Datum.shift (by_ : Nat) : Datum Scalar Tag → Datum Scalar Tag
  | .ref address => .ref (by_ + address)
  | v => v

/-- A cell whose references are moved up. -/
def Cell.shift (by_ : Nat) : Cell Scalar Tag → Cell Scalar Tag
  | .object fields => .object (fields.map fun field => (field.1, field.2.shift by_))
  | .array items => .array (items.map (·.shift by_))

/-- Shifting a cell shifts its data. -/
@[simp] theorem Cell.data_shift (by_ : Nat) (cell : Cell Scalar Tag) :
    (cell.shift by_).data = cell.data.map (·.shift by_) := by
  cases cell with
  | object fields => simp [Cell.shift, Cell.data, Function.comp_def]
  | array items => rfl

/-- The store; an address is the index of a cell. -/
abbrev ObjectHeap (Scalar Tag : Type) := List (Cell Scalar Tag)

namespace ObjectHeap

variable {heap cells : ObjectHeap Scalar Tag} {v w : Datum Scalar Tag}

/-- `w` is in the cell that `v` refers to. -/
def Points (heap : ObjectHeap Scalar Tag) (v w : Datum Scalar Tag) : Prop :=
  ∃ address cell, v = .ref address ∧ heap[address]? = some cell ∧ w ∈ cell.data

/-- `w` is reached from `v`. -/
def Reach (heap : ObjectHeap Scalar Tag) : Datum Scalar Tag → Datum Scalar Tag → Prop :=
  Relation.ReflTransGen (Points heap)

/-- A reference to a cell that growth has added. -/
def Fresh (heap cells : ObjectHeap Scalar Tag) (v : Datum Scalar Tag) : Prop :=
  ∃ index, index < cells.length ∧ v = .ref (heap.length + index)

section Regions

variable {region : Nat → Prop} {tags : Tag → Prop}

/-- A reference into a region of the store, or one of the tags. -/
def Within (region : Nat → Prop) (tags : Tag → Prop) (heap : ObjectHeap Scalar Tag) :
    Datum Scalar Tag → Prop
  | .scalar _ => True
  | .mark tag => tags tag
  | .ref address => address < heap.length ∧ region address

/-- The cells of a region lead nowhere else. -/
def Confined (region : Nat → Prop) (tags : Tag → Prop) (heap : ObjectHeap Scalar Tag) : Prop :=
  ∀ address cell, region address → heap[address]? = some cell →
    ∀ v ∈ cell.data, Within region tags heap v

/-- What is reached from a confined region stays within it. -/
theorem Confined.reach (confined : Confined region tags heap) (within : Within region tags heap v)
    (reach : Reach heap v w) : Within region tags heap w := by
  induction reach with
  | refl => exact within
  | tail _ points ih =>
      obtain ⟨address, cell, rfl, found, member⟩ := points
      exact confined address cell ih.2 found _ member

/-- New cells keep a value within its region. -/
theorem Within.append (within : Within region tags heap v) :
    Within region tags (heap ++ cells) v := by
  cases v with
  | scalar value => trivial
  | mark tag => exact within
  | ref address =>
      refine ⟨?_, within.2⟩
      rw [List.length_append]
      exact Nat.lt_add_right _ within.1

/-- Growth by cells that stay in the region. -/
theorem Confined.append (confined : Confined region tags heap)
    (within : ∀ cell ∈ cells, ∀ v ∈ cell.data, Within region tags (heap ++ cells) v) :
    Confined region tags (heap ++ cells) := by
  intro address cell inside found v member
  by_cases old : address < heap.length
  · rw [List.getElem?_append_left old] at found
    exact (confined address cell inside found v member).append
  · rw [List.getElem?_append_right (Nat.le_of_not_lt old)] at found
    exact within cell (List.mem_of_getElem? found) v member

/-- A fresh value is within a region of the new cells. -/
theorem Fresh.within (fresh : Fresh heap cells v)
    (beyond : ∀ address, heap.length ≤ address → region address) :
    Within region tags (heap ++ cells) v := by
  obtain ⟨index, bound, rfl⟩ := fresh
  refine ⟨?_, beyond _ (Nat.le_add_right _ _)⟩
  rw [List.length_append]
  exact Nat.add_lt_add_left bound _

end Regions

/-- `fields[key] = value` -/
def setField (fields : List (String × Datum Scalar Tag)) (key : String)
    (value : Datum Scalar Tag) : List (String × Datum Scalar Tag) :=
  fields.filter (fun field => field.1 ≠ key) ++ [(key, value)]

/-- Write a mark under a key of the object at an address. -/
def writeMark (heap : ObjectHeap Scalar Tag) (address : Nat) (key : String) (tag : Tag) :
    ObjectHeap Scalar Tag :=
  match heap[address]? with
  | some (.object fields) => heap.set address (.object (setField fields key (.mark tag)))
  | _ => heap

section Write

variable (heap) (address : Nat) (key : String) (tag : Tag)

/-- Writing a mark keeps the length of the heap. -/
@[simp] theorem length_writeMark : (writeMark heap address key tag).length = heap.length := by
  unfold writeMark
  split
  · rw [List.length_set]
  · rfl

/-- Other cells are not written. -/
theorem getElem?_writeMark_of_ne {other : Nat} (different : other ≠ address) :
    (writeMark heap address key tag)[other]? = heap[other]? := by
  unfold writeMark
  split
  · rw [List.getElem?_set_ne (Ne.symm different)]
  · rfl

/-- Neither is a part of the store before the written cell. -/
theorem isPrefix_writeMark {part : ObjectHeap Scalar Tag} (before : part <+: heap)
    (apart : part.length ≤ address) : part <+: writeMark heap address key tag := by
  rw [List.prefix_iff_getElem?] at before ⊢
  intro other bound
  have different : other ≠ address := by omega
  rw [getElem?_writeMark_of_ne heap address key tag different]
  exact before other bound

/-- A cell holds what it held, and the mark if it is the written one. -/
theorem points_of_writeMark (points : Points (writeMark heap address key tag) v w) :
    Points heap v w ∨ (v = .ref address ∧ w = .mark tag) := by
  obtain ⟨other, cell, rfl, found, member⟩ := points
  by_cases same : other = address
  · subst same
    unfold writeMark at found
    split at found
    · rename_i fields isObject
      have bound : other < heap.length := (List.getElem?_eq_some_iff.mp isObject).1
      rw [List.getElem?_set_self bound] at found
      cases found
      obtain ⟨field, listed, rfl⟩ := List.mem_map.mp member
      rcases List.mem_append.mp listed with kept | new
      · exact .inl ⟨other, _, rfl, isObject,
          List.mem_map.mpr ⟨field, (List.mem_filter.mp kept).1, rfl⟩⟩
      · cases List.mem_singleton.mp new
        exact .inr ⟨rfl, rfl⟩
    · exact .inl ⟨other, cell, rfl, found, member⟩
  · rw [getElem?_writeMark_of_ne heap address key tag same] at found
    exact .inl ⟨other, cell, rfl, found, member⟩

end Write

end ObjectHeap

end Restitch.Std
