import Mathlib.Data.List.DropRight
import Restitch.Std.Segments

/-!
# Lists written with separators

A list of texts written as one text, with a separator and a blank between its items, and
read back by cutting at the separator and trimming. The items that survive this are the
plain ones.
-/

namespace Restitch.Std

variable {α : Type} [DecidableEq α]

/-- A text without the blanks at its ends. -/
def trimmed (blank : α → Bool) (text : List α) : List α :=
  (text.dropWhile blank).rdropWhile blank

/-- The items of a text, trimmed; empty ones are dropped. -/
def readItems (blank : α → Bool) (separator : α) (text : List α) : List (List α) :=
  ((text.splitOn separator).map (trimmed blank)).filter (· ≠ [])

/-- The items in one text. -/
def writeItems (separator space : α) (items : List (List α)) : List α :=
  [separator, space].intercalate items

/-- An item that can be told from its neighbours. -/
structure PlainItem (blank : α → Bool) (separator : α) (item : List α) : Prop where
  ne_nil : item ≠ []
  unseparated : separator ∉ item
  trimmed_eq : trimmed blank item = item

variable {blank : α → Bool} {separator space : α}

section Trimmed

omit [DecidableEq α]

/-- Trimming twice is trimming once. -/
theorem trimmed_trimmed (text : List α) :
    trimmed blank (trimmed blank text) = trimmed blank text := by
  have front : (trimmed blank text).dropWhile blank = trimmed blank text := by
    cases kept : trimmed blank text with
    | nil => rfl
    | cons c rest =>
        obtain ⟨dropped, whole⟩ := List.rdropWhile_prefix blank (text.dropWhile blank)
        have stops := List.head?_dropWhile_not blank text
        rw [← whole, ← trimmed, kept] at stops
        apply List.dropWhile_cons_of_neg
        rw [Bool.not_eq_true]
        exact stops
  rw [trimmed, front, trimmed, List.rdropWhile_idempotent]

/-- Trimming adds no character. -/
theorem mem_of_mem_trimmed {text : List α} {c : α} (member : c ∈ trimmed blank text) : c ∈ text :=
  (List.dropWhile_suffix _).subset ((List.rdropWhile_prefix _ _).subset member)

/-- A blank in front is trimmed. -/
theorem trimmed_cons_of_blank (isBlank : blank space = true) (text : List α) :
    trimmed blank (space :: text) = trimmed blank text := by
  rw [trimmed, List.dropWhile_cons_of_pos isBlank, trimmed]

end Trimmed

/-- What is read are plain items. -/
theorem plainItem_of_mem_readItems {text item : List α}
    (member : item ∈ readItems blank separator text) : PlainItem blank separator item := by
  rw [readItems, List.mem_filter, decide_eq_true_eq] at member
  obtain ⟨inParts, nonempty⟩ := member
  obtain ⟨part, isPart, rfl⟩ := List.mem_map.mp inParts
  exact ⟨nonempty, fun separated => not_mem_of_mem_splitOn isPart (mem_of_mem_trimmed separated),
    trimmed_trimmed part⟩

/-- A blank in front of a text does not change its items. -/
theorem readItems_cons_of_blank (isBlank : blank space = true) (apart : space ≠ separator)
    (text : List α) :
    readItems blank separator (space :: text) = readItems blank separator text := by
  have other : ¬ (space == separator) = true := fun same => apart (beq_iff_eq.mp same)
  rw [readItems, readItems, List.splitOn_cons_eq_if_modifyHead, if_neg other]
  cases text.splitOn separator with
  | nil => rfl
  | cons part parts =>
      rw [List.modifyHead_cons, List.map_cons, List.map_cons, trimmed_cons_of_blank isBlank]

/-- A plain item in front of a separator is read first. -/
theorem readItems_append_cons {item : List α} (plain : PlainItem blank separator item)
    (text : List α) :
    readItems blank separator (item ++ separator :: text) =
      item :: readItems blank separator text := by
  rw [readItems, List.splitOn_append_cons_self, List.splitOn_eq_singleton plain.unseparated,
    List.singleton_append, List.map_cons, plain.trimmed_eq,
    List.filter_cons, if_pos (decide_eq_true plain.ne_nil), readItems]

/-- Plain items are read back as they were written. -/
theorem readItems_writeItems (isBlank : blank space = true) (apart : space ≠ separator)
    {items : List (List α)} (plain : ∀ item ∈ items, PlainItem blank separator item) :
    readItems blank separator (writeItems separator space items) = items := by
  induction items with
  | nil => rfl
  | cons item rest ih =>
      have isPlain := plain item List.mem_cons_self
      have later := ih fun other member => plain other (List.mem_cons_of_mem _ member)
      cases rest with
      | nil =>
          rw [writeItems, List.intercalate_singleton, readItems,
            List.splitOn_eq_singleton isPlain.unseparated, List.map_singleton, isPlain.trimmed_eq,
            List.filter_cons, if_pos (decide_eq_true isPlain.ne_nil), List.filter_nil]
      | cons next rest =>
          rw [writeItems, List.intercalate_cons_cons, List.append_assoc, List.cons_append,
            readItems_append_cons isPlain, List.singleton_append,
            readItems_cons_of_blank isBlank apart, ← writeItems, later]

/-- Items are read back as they were written exactly when all of them are plain. -/
theorem readItems_writeItems_iff (isBlank : blank space = true) (apart : space ≠ separator)
    (items : List (List α)) :
    readItems blank separator (writeItems separator space items) = items ↔
      ∀ item ∈ items, PlainItem blank separator item := by
  constructor
  · intro same item member
    rw [← same] at member
    exact plainItem_of_mem_readItems member
  · exact readItems_writeItems isBlank apart

end Restitch.Std
