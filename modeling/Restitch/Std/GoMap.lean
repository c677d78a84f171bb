import Mathlib.Algebra.GroupWithZero.Nat
import Mathlib.Data.List.AList

/-!
# Finite maps with an unspecified iteration order

A map is a list of entries without repeated keys. A loop over a map visits its
entries in an order that changes from loop to loop: any permutation of the
entries may be the order of one loop.
-/

namespace Restitch.Std

universe u v w x

/-- A finite map from keys to values. -/
abbrev GoMap (κ : Type u) (ν : Type v) := AList fun _ : κ => ν

/-- One entry of a map. -/
abbrev GoEntry (κ : Type u) (ν : Type v) := Sigma fun _ : κ => ν

namespace GoMap

variable {κ : Type u} {ν : Type v} {μ : Type w}

/-- `order` is a possible iteration order of `map`. -/
def RangesIn (map : GoMap κ ν) (order : List (GoEntry κ ν)) : Prop :=
  order.Perm map.entries

/-- Apply a function to every value. -/
def mapValues (f : ν → μ) (map : GoMap κ ν) : GoMap κ μ where
  entries := map.entries.map fun entry => ⟨entry.1, f entry.2⟩
  nodupKeys := by
    have keys : (map.entries.map fun entry => (⟨entry.1, f entry.2⟩ : GoEntry κ μ)).keys =
        map.entries.keys := by
      simp [List.keys, Function.comp_def]
    rw [List.NodupKeys, keys]
    exact map.nodupKeys

/-- Apply a function to every entry. -/
def mapWithKey (f : κ → ν → μ) (map : GoMap κ ν) : GoMap κ μ where
  entries := map.entries.map fun entry => ⟨entry.1, f entry.1 entry.2⟩
  nodupKeys := by
    have keys : (map.entries.map fun entry =>
        (⟨entry.1, f entry.1 entry.2⟩ : GoEntry κ μ)).keys = map.entries.keys := by
      simp [List.keys, Function.comp_def]
    rw [List.NodupKeys, keys]
    exact map.nodupKeys

@[simp] theorem keys_mapValues (f : ν → μ) (map : GoMap κ ν) :
    (map.mapValues f).keys = map.keys := by
  simp [mapValues, AList.keys, List.keys, Function.comp_def]

section Traverse

variable {ε : Type x} (f : κ → ν → Except ε μ)

/-- Apply a function that may fail to entries in order. -/
def traverseEntries : List (GoEntry κ ν) → Except ε (List (GoEntry κ μ))
  | [] => .ok []
  | entry :: rest =>
      match f entry.1 entry.2 with
      | .error error => .error error
      | .ok value =>
          match traverseEntries rest with
          | .error error => .error error
          | .ok later => .ok (⟨entry.1, value⟩ :: later)

/-- Entry by entry, a traversal keeps the key and applies the function. -/
theorem forall₂_of_traverseEntries {entries : List (GoEntry κ ν)} {result : List (GoEntry κ μ)}
    (done : traverseEntries f entries = .ok result) :
    List.Forall₂ (fun before after => after.1 = before.1 ∧ f before.1 before.2 = .ok after.2)
      entries result := by
  induction entries generalizing result with
  | nil =>
      cases done
      exact .nil
  | cons entry rest ih =>
      cases applied : f entry.1 entry.2 with
      | error error => simp [traverseEntries, applied] at done
      | ok value =>
          cases remaining : traverseEntries f rest with
          | error error => simp [traverseEntries, applied, remaining] at done
          | ok later =>
              simp only [traverseEntries, applied, remaining, Except.ok.injEq] at done
              subst done
              exact .cons ⟨rfl, applied⟩ (ih remaining)

/-- A traversal keeps the keys. -/
theorem keys_of_traverseEntries {entries : List (GoEntry κ ν)} {result : List (GoEntry κ μ)}
    (done : traverseEntries f entries = .ok result) : result.keys = entries.keys := by
  have related := forall₂_of_traverseEntries f done
  clear done
  induction related with
  | nil => rfl
  | cons first _ ih => rw [List.keys_cons, List.keys_cons, first.1, ih]

/-- Apply a function that may fail to every value, in the order of the entries. -/
def traverse (map : GoMap κ ν) : Except ε (GoMap κ μ) :=
  match done : traverseEntries f map.entries with
  | .ok entries =>
      .ok ⟨entries, by rw [List.NodupKeys, keys_of_traverseEntries f done]; exact map.nodupKeys⟩
  | .error error => .error error

/-- A traversal maps the entries one by one. -/
theorem forall₂_of_traverse {map : GoMap κ ν} {result : GoMap κ μ}
    (done : traverse f map = .ok result) :
    List.Forall₂ (fun before after => after.1 = before.1 ∧ f before.1 before.2 = .ok after.2)
      map.entries result.entries := by
  unfold traverse at done
  split at done
  · rename_i entries traversed
    cases done
    exact forall₂_of_traverseEntries f traversed
  · cases done

/-- A traversal keeps the keys. -/
theorem keys_of_traverse {map : GoMap κ ν} {result : GoMap κ μ}
    (done : traverse f map = .ok result) : result.keys = map.keys := by
  unfold traverse at done
  split at done
  · rename_i entries traversed
    cases done
    exact keys_of_traverseEntries f traversed
  · cases done

/-- Every value of a traversal comes from the value under the same key. -/
theorem exists_of_traverse {map : GoMap κ ν} {result : GoMap κ μ}
    (done : traverse f map = .ok result) {entry : GoEntry κ μ} (member : entry ∈ result.entries) :
    ∃ value, ⟨entry.1, value⟩ ∈ map.entries ∧ f entry.1 value = .ok entry.2 := by
  have related := forall₂_of_traverse f done
  revert member
  generalize map.entries = before at related ⊢
  generalize result.entries = after at related ⊢
  induction related with
  | nil => simp
  | @cons before after earlier later here _ ih =>
      intro member
      rcases List.mem_cons.mp member with rfl | rest
      · refine ⟨before.2, ?_, ?_⟩
        · rw [here.1]
          exact List.mem_cons_self
        · rw [here.1]
          exact here.2
      · obtain ⟨value, listed, applied⟩ := ih rest
        exact ⟨value, List.mem_cons_of_mem _ listed, applied⟩

/-- A traversal fails only where the function does. -/
theorem exists_traverse {map : GoMap κ ν}
    (all : ∀ entry ∈ map.entries, ∃ value, f entry.1 entry.2 = .ok value) :
    ∃ result, traverse f map = .ok result := by
  have entries : ∃ result, traverseEntries f map.entries = .ok result := by
    revert all
    generalize map.entries = listed
    intro all
    induction listed with
    | nil => exact ⟨[], rfl⟩
    | cons entry rest ih =>
        obtain ⟨value, applied⟩ := all entry List.mem_cons_self
        obtain ⟨later, remaining⟩ := ih fun other member =>
          all other (List.mem_cons_of_mem entry member)
        exact ⟨⟨entry.1, value⟩ :: later, by simp only [traverseEntries, applied, remaining]⟩
  obtain ⟨result, traversed⟩ := entries
  unfold traverse
  split
  · exact ⟨_, rfl⟩
  · next failed => cases traversed.symm.trans failed

end Traverse

variable [DecidableEq κ]

/-- A key has the image of its value. -/
@[simp] theorem lookup_mapValues (f : ν → μ) (map : GoMap κ ν) (key : κ) :
    (map.mapValues f).lookup key = (map.lookup key).map f := by
  obtain ⟨entries, nodup⟩ := map
  simp only [mapValues, AList.lookup]
  induction entries with
  | nil => rfl
  | cons entry rest ih =>
      obtain ⟨entryKey, value⟩ := entry
      by_cases same : entryKey = key
      · subst same
        simp
      · have different : key ≠ entryKey := Ne.symm same
        rw [List.map_cons, List.dlookup_cons_ne _ _ different, List.dlookup_cons_ne _ _ different]
        exact ih (List.nodupKeys_cons.mp nodup).2

/-- The value of a key, or a default for a key the map does not hold. -/
def getD (map : GoMap κ ν) (key : κ) (default : ν) : ν :=
  (map.lookup key).getD default

section FoldInsert

variable {α : Type x} (key : α → κ) (value : α → ν)

/-- Insertions leave the other keys alone. -/
theorem lookup_foldl_insert_of_notMem {items : List α} {name : κ} (map : GoMap κ ν)
    (absent : name ∉ items.map key) :
    (items.foldl (fun map item => map.insert (key item) (value item)) map).lookup name =
      map.lookup name := by
  induction items generalizing map with
  | nil => rfl
  | cons item rest ih =>
      rw [List.map_cons, List.mem_cons, not_or] at absent
      rw [List.foldl_cons, ih _ absent.2, AList.lookup_insert_ne absent.1]

/-- Insertions under different keys are all found. -/
theorem lookup_foldl_insert {items : List α} (map : GoMap κ ν) (distinct : (items.map key).Nodup)
    {item : α} (member : item ∈ items) :
    (items.foldl (fun map item => map.insert (key item) (value item)) map).lookup (key item) =
      some (value item) := by
  induction items generalizing map with
  | nil => cases member
  | cons head rest ih =>
      obtain ⟨fresh, restDistinct⟩ := List.nodup_cons.mp distinct
      rw [List.foldl_cons]
      rcases List.mem_cons.mp member with rfl | later
      · rw [lookup_foldl_insert_of_notMem key value _ fresh, AList.lookup_insert]
      · exact ih _ restDistinct later

end FoldInsert

/-- Entries are exactly what lookups find. -/
theorem mem_entries_iff {map : GoMap κ ν} {key : κ} {value : ν} :
    (⟨key, value⟩ : GoEntry κ ν) ∈ map.entries ↔ map.lookup key = some value :=
  AList.mem_lookup_iff.symm

/-- A key is one with a value. -/
theorem mem_keys_iff {map : GoMap κ ν} {key : κ} :
    key ∈ map.keys ↔ ∃ value, map.lookup key = some value := by
  rw [← AList.mem_keys, ← AList.lookup_isSome, Option.isSome_iff_exists]

/-- A traversal finds under a key what the function makes of the value there. -/
theorem lookup_of_traverse {ε : Type x} {f : κ → ν → Except ε μ} {map : GoMap κ ν}
    {result : GoMap κ μ} (done : traverse f map = .ok result) {key : κ} {value : ν}
    (found : map.lookup key = some value) :
    ∃ applied, result.lookup key = some applied ∧ f key value = .ok applied := by
  obtain ⟨applied, here⟩ := mem_keys_iff.mp
    (keys_of_traverse f done ▸ mem_keys_iff.mpr ⟨value, found⟩)
  obtain ⟨other, listed, isApplied⟩ := exists_of_traverse f done (mem_entries_iff.mpr here)
  cases found.symm.trans (mem_entries_iff.mp listed)
  exact ⟨applied, here, isApplied⟩

/-- The entries whose values are kept. -/
def filterValues (keep : ν → Bool) (map : GoMap κ ν) : GoMap κ ν where
  entries := map.entries.filter fun entry => keep entry.2
  nodupKeys := map.nodupKeys.sublist List.filter_sublist

/-- A key has its value if that is kept. -/
theorem lookup_filterValues (keep : ν → Bool) (map : GoMap κ ν) (key : κ) :
    (map.filterValues keep).lookup key = (map.lookup key).filter keep := by
  refine Option.ext fun value => ?_
  rw [Option.filter_eq_some_iff, ← mem_entries_iff, ← mem_entries_iff]
  exact List.mem_filter

/-- An insertion changes a sum over the entries by the new value less the old one. -/
theorem sum_insert (weight : ν → Nat) (map : GoMap κ ν) (key : κ) (value : ν) :
    ((map.insert key value).entries.map fun entry => weight entry.2).sum +
        ((map.lookup key).map weight).getD 0 =
      (map.entries.map fun entry => weight entry.2).sum + weight value := by
  rw [AList.entries_insert, List.map_cons, List.sum_cons]
  by_cases present : key ∈ map.entries.keys
  · obtain ⟨old, before, after, absent, isEntries, erased⟩ := List.exists_of_kerase present
    have found : map.lookup key = some old := by
      rw [AList.lookup, isEntries, List.dlookup_append, List.dlookup_eq_none.mpr absent]
      simp
    rw [erased, found, isEntries]
    simp only [List.map_append, List.map_cons, List.sum_append, List.sum_cons, Option.map_some,
      Option.getD_some]
    omega
  · have missing : map.lookup key = none := List.dlookup_eq_none.mpr present
    rw [List.kerase_of_notMem_keys present, missing, Option.map_none, Option.getD_none,
      Nat.add_zero, Nat.add_comm]

/-- The entries under a key are the one that a lookup finds. -/
theorem sum_filter_key (weight : ν → Nat) (map : GoMap κ ν) (key : κ) :
    ((map.entries.filter fun entry => entry.1 = key).map fun entry => weight entry.2).sum =
      ((map.lookup key).map weight).getD 0 := by
  obtain ⟨entries, nodup⟩ := map
  simp only [AList.lookup]
  induction entries with
  | nil => rfl
  | cons entry rest ih =>
      obtain ⟨entryKey, value⟩ := entry
      obtain ⟨absent, laterNodup⟩ := List.nodupKeys_cons.mp nodup
      by_cases same : entryKey = key
      · subst same
        have later := ih laterNodup
        rw [List.dlookup_eq_none.mpr absent] at later
        rw [List.filter_cons_of_pos (by simp), List.map_cons, List.sum_cons, later,
          List.dlookup_cons_eq]
        rfl
      · rw [List.filter_cons_of_neg (by simpa using same),
          List.dlookup_cons_ne _ _ (Ne.symm same)]
        exact ih laterNodup

end GoMap

end Restitch.Std
