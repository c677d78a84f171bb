import Mathlib.Data.List.Sort
import Mathlib.Data.String.Basic
import Restitch.Std.GoMap

/-!
# Sums kept in a map

A loop that reads the entry of an item's key, adds the item to it and writes it back. The
entry of a key is in the end what the items with this key add up to, whatever the others are.
-/

namespace Restitch.Std.GoMap

universe u v w

variable {κ : Type u} [DecidableEq κ] {ν : Type v} {ε : Type w}

section Accumulate

variable (key : ε → κ) (start : κ → ν) (add : ν → ε → ν)

/-- `m[k] = add(m[k], item)`, where a missing entry is `start`. -/
def accumulate (map : GoMap κ ν) (item : ε) : GoMap κ ν :=
  map.insert (key item) (add ((map.lookup (key item)).getD (start (key item))) item)

variable {key start add}

/-- A loop goes on from what a map holds. -/
theorem lookup_foldl_accumulate (items : List ε) (map : GoMap κ ν) (name : κ) :
    (items.foldl (accumulate key start add) map).lookup name =
      if ∃ item ∈ items, key item = name then
        some ((items.filter (key · = name)).foldl add ((map.lookup name).getD (start name)))
      else map.lookup name := by
  induction items generalizing map with
  | nil => simp
  | cons item rest ih =>
      rw [List.foldl_cons, ih]
      by_cases here : key item = name
      · subst here
        have after : (accumulate key start add map item).lookup (key item) =
            some (add ((map.lookup (key item)).getD (start (key item))) item) :=
          AList.lookup_insert map
        simp only [after, Option.getD_some, List.mem_cons, exists_eq_or_imp, true_or, if_true]
        rw [List.filter_cons_of_pos (by simp), List.foldl_cons]
        split
        · rfl
        · rename_i absent
          have none_ : rest.filter (key · = key item) = [] :=
            List.filter_eq_nil_iff.mpr fun other member same =>
              absent ⟨other, member, by simpa using same⟩
          rw [none_, List.foldl_nil]
      · have after : (accumulate key start add map item).lookup name = map.lookup name :=
          AList.lookup_insert_ne (Ne.symm here)
        rw [after, List.filter_cons_of_neg (by simpa using here)]
        simp only [List.mem_cons, exists_eq_or_imp, here, false_or]

/-- From an empty map, an entry is what the items with its key add up to. -/
theorem lookup_accumulated (items : List ε) (name : κ) :
    (items.foldl (accumulate key start add) ∅).lookup name =
      if ∃ item ∈ items, key item = name then
        some ((items.filter (key · = name)).foldl add (start name))
      else none := by
  rw [lookup_foldl_accumulate]
  rfl

/-- A name has the total of the items with it, if there are any. -/
theorem lookup_accumulated_eq_some {items : List ε} {name : κ} {value : ν} :
    (items.foldl (accumulate key start add) ∅).lookup name = some value ↔
      (∃ item ∈ items, key item = name) ∧
        (items.filter (key · = name)).foldl add (start name) = value := by
  rw [lookup_accumulated]
  split
  · rename_i present
    rw [Option.some_inj]
    exact ⟨fun same => ⟨present, same⟩, fun both => both.2⟩
  · rename_i absent
    exact ⟨nofun, fun both => absurd both.1 absent⟩

variable (key start add) in
/-- A quantity that every item adds to its entry adds up over the map. -/
theorem sum_accumulated (weight : ν → Nat) (gain : ε → Nat)
    (weight_start : ∀ name, weight (start name) = 0)
    (weight_add : ∀ value item, weight (add value item) = weight value + gain item)
    (items : List ε) (map : GoMap κ ν) :
    ((items.foldl (accumulate key start add) map).entries.map fun entry => weight entry.2).sum =
      (map.entries.map fun entry => weight entry.2).sum + (items.map gain).sum := by
  induction items generalizing map with
  | nil => simp
  | cons item rest ih =>
      have inserted := sum_insert weight map (key item)
        (add ((map.lookup (key item)).getD (start (key item))) item)
      have old : weight ((map.lookup (key item)).getD (start (key item))) =
          ((map.lookup (key item)).map weight).getD 0 := by
        cases map.lookup (key item) with
        | none => exact weight_start _
        | some value => rfl
      rw [weight_add, old] at inserted
      rw [List.foldl_cons, ih, List.map_cons, List.sum_cons, accumulate]
      omega

end Accumulate

/-- A quantity that every item adds adds up over the items. -/
theorem foldl_weight {μ : Type*} [AddCommMonoid μ] (add : ν → ε → ν) (weight : ν → μ)
    (gain : ε → μ) (weight_add : ∀ value item, weight (add value item) = weight value + gain item)
    (items : List ε) (value : ν) :
    weight (items.foldl add value) = weight value + (items.map gain).sum := by
  induction items generalizing value with
  | nil => simp
  | cons item rest ih => rw [List.foldl_cons, ih, weight_add, List.map_cons, List.sum_cons, add_assoc]

/-- The entries under a key hold what a lookup finds. -/
theorem filter_key_entries (map : GoMap κ ν) (name : κ) :
    (map.entries.filter (·.1 = name)).map (·.2) = (map.lookup name).toList := by
  obtain ⟨entries, nodup⟩ := map
  simp only [AList.lookup]
  induction entries with
  | nil => rfl
  | cons entry rest ih =>
      obtain ⟨key, value⟩ := entry
      obtain ⟨absent, laterNodup⟩ := List.nodupKeys_cons.mp nodup
      by_cases same : key = name
      · subst same
        have later := ih laterNodup
        rw [List.dlookup_eq_none.mpr absent] at later
        rw [List.filter_cons_of_pos (by simp), List.map_cons, later, List.dlookup_cons_eq]
        rfl
      · rw [List.filter_cons_of_neg (by simpa using same),
          List.dlookup_cons_ne _ _ (Ne.symm same)]
        exact ih laterNodup

/-- The entries of some maps under one key. -/
theorem filter_flatMap_entries (maps : List (GoMap κ ν)) (name : κ) :
    ((maps.flatMap (·.entries)).filter (·.1 = name)).map (·.2) =
      maps.filterMap (·.lookup name) := by
  induction maps with
  | nil => rfl
  | cons map rest ih =>
      rw [List.flatMap_cons, List.filter_append, List.map_append, ih, filter_key_entries,
        List.filterMap_cons]
      cases map.lookup name <;> rfl

/-- Items with different keys, in the order of their keys. -/
theorem pairwise_lt_insertionSort {α : Type*} {β : Type*} [LinearOrder β] (key : α → β)
    {items : List α} (distinct : (items.map key).Nodup) :
    ((items.insertionSort fun first second => key first ≤ key second).map key).Pairwise
      (· < ·) := by
  have : Std.Total fun first second : α => key first ≤ key second :=
    ⟨fun first second => le_total (key first) (key second)⟩
  have : IsTrans α fun first second => key first ≤ key second := ⟨fun _ _ _ => le_trans⟩
  have sorted := List.pairwise_insertionSort (fun first second => key first ≤ key second) items
  have apart : ((items.insertionSort fun first second => key first ≤ key second).map key).Nodup :=
    ((List.perm_insertionSort _ items).map key).nodup_iff.mpr distinct
  rw [List.Nodup, List.pairwise_map] at apart
  rw [List.pairwise_map]
  exact (sorted.and apart).imp fun both => lt_of_le_of_ne both.1 both.2

end Restitch.Std.GoMap
