import Mathlib.Data.List.AList
import Restitch.Ratelimit.Limiter
import Restitch.Std.GoMap
import Restitch.Std.Recency

/-!
# The table of token buckets (`internal/ratelimit/ratelimit.go`)

A limiter keeps one token bucket for each of the keys used last: a map from keys to list
elements, and the list, the key used last in front. A bucket that was evicted is not found
again; its key gets a new one.
-/

namespace Restitch.Ratelimit

open Restitch.Http Restitch.Std

/-- `maxDistinctKeys`. -/
def maxDistinctKeys : Nat := 10000

/-- A `*list.Element` with its `lruItem`. Every element is made with a token bucket of its own
and never changed, so the number of the bucket tells elements apart. -/
structure LruElement where
  key : String
  limiter : Nat
deriving DecidableEq

/-- `entries` and `lru` of a `Limiter`, the list from its front. `made` counts the token
buckets made so far. -/
structure LimiterTable where
  entries : GoMap String LruElement
  lru : List LruElement
  made : Nat

/-- The table that `New` makes. -/
def newTable : LimiterTable := ⟨∅, [], 0⟩

/-- `MoveToFront`. -/
def moveToFront (el : LruElement) (lru : List LruElement) : List LruElement := el :: lru.erase el

/-- Drop the element at the back, if there is one. -/
def LimiterTable.evict (table : LimiterTable) : LimiterTable :=
  match table.lru.getLast? with
  | some back => { table with
      entries := table.entries.erase back.key
      lru := table.lru.erase back }
  | none => table

/-- `limiterFor`, with the number of the token bucket it returns. -/
def LimiterTable.limiterFor (table : LimiterTable) (key : String) : LimiterTable × Nat :=
  match table.entries.lookup key with
  | some el => ({ table with lru := moveToFront el table.lru }, el.limiter)
  | none =>
      let table := if maxDistinctKeys ≤ table.lru.length then table.evict else table
      let item : LruElement := ⟨key, table.made⟩
      (⟨table.entries.insert key item, item :: table.lru, table.made + 1⟩, item.limiter)

/-- The table after calls for these keys. -/
def tableAfter (keys : List String) : LimiterTable :=
  keys.foldl (fun table key => (table.limiterFor key).1) newTable

/-- The token bucket that a call for a key asks after calls for these keys. -/
def bucketAfter (keys : List String) (key : String) : Nat :=
  ((tableAfter keys).limiterFor key).2

/-- `Limiter.Allow`, but for the question to the token bucket: its number. -/
def RateLimitConfig.allow (config : RateLimitConfig) (table : LimiterTable)
    (request : HttpRequest) : LimiterTable × Nat :=
  table.limiterFor (config.bucketKey request)

/-- Map and list hold the same keys, those used last and as many as fit, in the order of their
last use. -/
structure TableInvariant (uses : List String) (table : LimiterTable) : Prop where
  keys : table.lru.map LruElement.key = (recent uses).take maxDistinctKeys
  entries : ∀ key el, table.entries.lookup key = some el ↔ el ∈ table.lru ∧ el.key = key
  made : ∀ el ∈ table.lru, el.limiter < table.made

section Invariant

variable {uses : List String} {table : LimiterTable} {key : String} {el : LruElement}

/-- Every key has one element of the list. -/
theorem TableInvariant.nodup_keys (invariant : TableInvariant uses table) :
    (table.lru.map LruElement.key).Nodup := by
  rw [invariant.keys]
  exact (nodup_recent uses).sublist (List.take_sublist _ _)

/-- No element is listed twice. -/
theorem TableInvariant.nodup (invariant : TableInvariant uses table) : table.lru.Nodup :=
  invariant.nodup_keys.of_map _

/-- The element of a key is the only one with this key. -/
theorem TableInvariant.eq_of_key (invariant : TableInvariant uses table) {other : LruElement}
    (member : el ∈ table.lru) (otherMember : other ∈ table.lru) (same : el.key = other.key) :
    el = other :=
  List.inj_on_of_nodup_map invariant.nodup_keys member otherMember same

/-- Erasing the element of a key removes the key. -/
theorem TableInvariant.map_key_erase (invariant : TableInvariant uses table)
    (member : el ∈ table.lru) :
    (table.lru.erase el).map LruElement.key =
      (table.lru.map LruElement.key).filter (· ≠ el.key) := by
  rw [invariant.nodup.erase_eq_filter, List.filter_map]
  congr 1
  refine List.filter_congr fun other otherMember => ?_
  by_cases same : other = el
  · simp [same]
  · have different : other.key ≠ el.key :=
      fun keys => same (invariant.eq_of_key otherMember member keys)
    simp [same, different]

/-- A key is in the map exactly if it is among those used last. -/
theorem TableInvariant.mem_keys_iff (invariant : TableInvariant uses table) :
    key ∈ table.entries.keys ↔ key ∈ (recent uses).take maxDistinctKeys := by
  rw [GoMap.mem_keys_iff, ← invariant.keys, List.mem_map]
  exact exists_congr fun el => invariant.entries key el

/-- A key that is in the table is found in it. -/
theorem TableInvariant.exists_lookup (invariant : TableInvariant uses table)
    (present : key ∈ (recent uses).take maxDistinctKeys) :
    ∃ el, table.entries.lookup key = some el :=
  GoMap.mem_keys_iff.mp (invariant.mem_keys_iff.mpr present)

/-- The invariant holds of a new table. -/
theorem tableInvariant_newTable : TableInvariant [] newTable where
  keys := rfl
  entries key el := by
    rw [newTable, AList.lookup_empty]
    simp
  made := List.forall_mem_nil _

/-- A hit moves the element to the front. -/
theorem TableInvariant.hit (invariant : TableInvariant uses table)
    (found : table.entries.lookup key = some el) :
    TableInvariant (uses ++ [key]) { table with lru := moveToFront el table.lru } := by
  obtain ⟨member, isKey⟩ := (invariant.entries key el).mp found
  have same : ∀ other, other ∈ moveToFront el table.lru ↔ other ∈ table.lru := by
    intro other
    rw [moveToFront, List.mem_cons, invariant.nodup.mem_erase_iff]
    by_cases isEl : other = el <;> simp [isEl, member]
  refine ⟨?_, ?_, ?_⟩
  · have fits : (el.key :: (table.lru.erase el).map LruElement.key).length ≤ maxDistinctKeys := by
      have held := congrArg List.length invariant.keys
      have short := List.length_erase_add_one member
      rw [List.length_map, List.length_take] at held
      rw [List.length_cons, List.length_map, short, held]
      exact Nat.min_le_left _ _
    have used := touch_take_recent (by decide : 0 < maxDistinctKeys) uses key
    rw [touch, ← invariant.keys, ← isKey, ← invariant.map_key_erase member,
      List.take_of_length_le fits, isKey] at used
    rw [← used, moveToFront, List.map_cons, isKey]
  · intro other otherEl
    rw [invariant.entries, same]
  · intro other otherMember
    exact invariant.made other ((same other).mp otherMember)

/-- An element for a key that the table does not hold, where there is room for it. -/
theorem TableInvariant.insert (invariant : TableInvariant uses table)
    {held : LimiterTable} {kept : List LruElement} (isMade : held.made = table.made)
    (isLru : held.lru = kept) (within : kept ⊆ table.lru)
    (keys : key :: kept.map LruElement.key = (recent (uses ++ [key])).take maxDistinctKeys)
    (entries : ∀ other el, held.entries.lookup other = some el ↔ el ∈ kept ∧ el.key = other) :
    TableInvariant (uses ++ [key])
      ⟨held.entries.insert key ⟨key, held.made⟩, ⟨key, held.made⟩ :: held.lru, held.made + 1⟩ := by
  have fresh : ∀ el ∈ kept, el.key ≠ key := by
    intro el member same
    have unique := (nodup_recent (uses ++ [key])).sublist (List.take_sublist maxDistinctKeys _)
    rw [← keys] at unique
    exact (List.nodup_cons.mp unique).1 (List.mem_map.mpr ⟨el, member, same⟩)
  refine ⟨?_, ?_, ?_⟩
  · rw [isLru]
    exact keys
  · intro other el
    rw [isLru, List.mem_cons]
    by_cases same : other = key
    · subst same
      rw [AList.lookup_insert, Option.some_inj]
      constructor
      · rintro rfl
        exact ⟨.inl rfl, rfl⟩
      · rintro ⟨rfl | member, isKey⟩
        · rfl
        · exact absurd isKey (fresh el member)
    · rw [AList.lookup_insert_ne same, entries]
      constructor
      · rintro ⟨member, isKey⟩
        exact ⟨.inr member, isKey⟩
      · rintro ⟨rfl | member, isKey⟩
        · exact absurd isKey.symm same
        · exact ⟨member, isKey⟩
  · intro el member
    rw [isLru, List.mem_cons] at member
    rw [isMade]
    rcases member with rfl | member
    · rw [isMade]
      exact Nat.lt_succ_self _
    · exact Nat.lt_succ_of_lt (invariant.made el (within member))

/-- A key that the table does not hold, used while there is room. -/
theorem TableInvariant.miss_room (invariant : TableInvariant uses table)
    (absent : table.entries.lookup key = none) (room : table.lru.length < maxDistinctKeys) :
    TableInvariant (uses ++ [key])
      ⟨table.entries.insert key ⟨key, table.made⟩, ⟨key, table.made⟩ :: table.lru,
        table.made + 1⟩ := by
  refine invariant.insert rfl rfl (List.Subset.refl _) ?_ invariant.entries
  have used := touch_take_recent (by decide : 0 < maxDistinctKeys) uses key
  have missing : key ∉ table.lru.map LruElement.key := by
    intro member
    rw [invariant.keys] at member
    obtain ⟨el, found⟩ := invariant.exists_lookup member
    rw [absent] at found
    cases found
  rw [touch, ← invariant.keys, List.filter_eq_self.mpr, List.take_of_length_le] at used
  · exact used
  · rw [List.length_cons, List.length_map]
    exact room
  · intro other member
    exact decide_eq_true fun same => missing (same ▸ member)

/-- A key that the table does not hold, used while the table is full. -/
theorem TableInvariant.miss_full (invariant : TableInvariant uses table)
    (absent : table.entries.lookup key = none) (full : maxDistinctKeys ≤ table.lru.length) :
    TableInvariant (uses ++ [key])
      ⟨table.evict.entries.insert key ⟨key, table.evict.made⟩,
        ⟨key, table.evict.made⟩ :: table.evict.lru, table.evict.made + 1⟩ := by
  have nonempty : table.lru ≠ [] := by
    intro empty
    rw [empty] at full
    exact absurd full (by decide)
  obtain ⟨kept, back, isLru⟩ := List.eq_nil_or_concat table.lru |>.resolve_left nonempty
  rw [List.concat_eq_append] at isLru
  have notKept : back ∉ kept := by
    intro member
    have unique := invariant.nodup
    rw [isLru] at unique
    exact List.disjoint_of_nodup_append unique member List.mem_cons_self
  have evicted :
      table.evict = { table with entries := table.entries.erase back.key, lru := kept } := by
    rw [LimiterTable.evict, isLru, List.getLast?_concat]
    dsimp only
    rw [List.erase_append_right _ notKept, List.erase_cons_head, List.append_nil]
  have within : kept ⊆ table.lru := isLru ▸ List.subset_append_left _ _
  have missing : key ∉ table.lru.map LruElement.key := by
    intro member
    rw [invariant.keys] at member
    obtain ⟨el, found⟩ := invariant.exists_lookup member
    rw [absent] at found
    cases found
  refine invariant.insert ?_ ?_ within ?_ ?_
  · rw [evicted]
  · rw [evicted]
  · have used := touch_take_recent (by decide : 0 < maxDistinctKeys) uses key
    have held := congrArg List.length invariant.keys
    have whole : kept.length + 1 = table.lru.length := by
      rw [isLru, List.length_append, List.length_singleton]
    rw [List.length_map, List.length_take] at held
    rw [touch, ← invariant.keys, List.filter_eq_self.mpr, isLru, List.map_append,
      ← List.cons_append, List.take_append_of_le_length, List.take_of_length_le] at used
    · exact used
    · rw [List.length_cons, List.length_map]
      omega
    · rw [List.length_cons, List.length_map]
      omega
    · intro other member
      exact decide_eq_true fun same => missing (same ▸ member)
  · intro other el
    rw [evicted]
    dsimp only
    have unique := invariant.nodup_keys
    rw [isLru, List.map_append] at unique
    by_cases same : other = back.key
    · subst same
      rw [AList.lookup_erase]
      refine iff_of_false (Option.some_ne_none _).symm ?_
      rintro ⟨member, isKey⟩
      exact List.disjoint_of_nodup_append unique (List.mem_map.mpr ⟨el, member, isKey⟩)
        List.mem_cons_self
    · rw [AList.lookup_erase_ne same, invariant.entries, isLru, List.mem_append,
        List.mem_singleton]
      constructor
      · rintro ⟨member | rfl, isKey⟩
        · exact ⟨member, isKey⟩
        · exact absurd isKey.symm same
      · rintro ⟨member, isKey⟩
        exact ⟨.inl member, isKey⟩

/-- One call. -/
theorem TableInvariant.step (invariant : TableInvariant uses table) (key : String) :
    TableInvariant (uses ++ [key]) (table.limiterFor key).1 := by
  rw [LimiterTable.limiterFor]
  cases found : table.entries.lookup key with
  | some el => exact invariant.hit found
  | none =>
      dsimp only
      by_cases full : maxDistinctKeys ≤ table.lru.length
      · rw [if_pos full]
        exact invariant.miss_full found full
      · rw [if_neg full]
        exact invariant.miss_room found (Nat.lt_of_not_le full)

/-- The last key is used last. -/
theorem tableAfter_concat (keys : List String) (key : String) :
    tableAfter (keys ++ [key]) = ((tableAfter keys).limiterFor key).1 := by
  rw [tableAfter, List.foldl_append]
  rfl

/-- Any calls. -/
theorem tableInvariant (keys : List String) : TableInvariant keys (tableAfter keys) := by
  induction keys using List.reverseRecOn with
  | nil => exact tableInvariant_newTable
  | append_singleton keys key ih =>
      rw [tableAfter_concat]
      exact ih.step key

/-- The table holds as many keys as were used, up to its size. -/
theorem TableInvariant.length_lru (invariant : TableInvariant uses table) :
    table.lru.length = min uses.dedup.length maxDistinctKeys := by
  have held := congrArg List.length invariant.keys
  rw [List.length_map, List.length_take, length_recent] at held
  rw [held, Nat.min_comm]

end Invariant

section Buckets

variable {table : LimiterTable} {key other : String}

/-- A call for another key keeps the element of a key, unless it evicts it. -/
theorem lookup_limiterFor_other (different : key ≠ other) :
    (table.limiterFor other).1.entries.lookup key = table.entries.lookup key ∨
      (table.limiterFor other).1.entries.lookup key = none := by
  rw [LimiterTable.limiterFor]
  cases table.entries.lookup other with
  | some el => exact .inl rfl
  | none =>
      dsimp only
      rw [AList.lookup_insert_ne different]
      by_cases full : maxDistinctKeys ≤ table.lru.length
      · rw [if_pos full, LimiterTable.evict]
        cases table.lru.getLast? with
        | none => exact .inl rfl
        | some back =>
            by_cases evicted : key = back.key
            · subst evicted
              exact .inr (AList.lookup_erase _ _)
            · exact .inl (AList.lookup_erase_ne evicted)
      · rw [if_neg full]
        exact .inl rfl

/-- The element that a key has after its call holds the bucket that the call asked. -/
theorem lookup_limiterFor (table : LimiterTable) (key : String) :
    ∃ el, (table.limiterFor key).1.entries.lookup key = some el ∧
      el.limiter = (table.limiterFor key).2 := by
  rw [LimiterTable.limiterFor]
  cases found : table.entries.lookup key with
  | some el => exact ⟨el, found, rfl⟩
  | none => exact ⟨_, AList.lookup_insert _, rfl⟩

/-- Evicting makes no limiter. -/
theorem LimiterTable.made_evict (table : LimiterTable) : table.evict.made = table.made := by
  rw [LimiterTable.evict]
  cases table.lru.getLast? <;> rfl

/-- Buckets are numbered upwards. -/
theorem made_le_limiterFor (table : LimiterTable) (key : String) :
    table.made ≤ (table.limiterFor key).1.made := by
  rw [LimiterTable.limiterFor]
  cases table.entries.lookup key with
  | some el => exact Nat.le_refl _
  | none =>
      dsimp only
      split
      · rw [LimiterTable.made_evict]
        exact Nat.le_succ _
      · exact Nat.le_succ _

/-- A key without an element gets a new bucket. -/
theorem limiterFor_missing (missing : table.entries.lookup key = none) :
    (table.limiterFor key).2 = table.made := by
  rw [LimiterTable.limiterFor, missing]
  dsimp only
  split
  · exact table.made_evict
  · rfl

/-- While other keys are used, the element of a key stays the same until it is evicted, and
later buckets have larger numbers. -/
theorem tableAfter_others (uses between : List String) (notBetween : key ∉ between) :
    ((tableAfter (uses ++ between)).entries.lookup key = (tableAfter uses).entries.lookup key ∨
      (tableAfter (uses ++ between)).entries.lookup key = none) ∧
      (tableAfter uses).made ≤ (tableAfter (uses ++ between)).made := by
  induction between using List.reverseRecOn with
  | nil =>
      rw [List.append_nil]
      exact ⟨.inl rfl, Nat.le_refl _⟩
  | append_singleton between other ih =>
      rw [List.mem_append, List.mem_singleton, not_or] at notBetween
      obtain ⟨same, later⟩ := ih notBetween.1
      rw [← List.append_assoc, tableAfter_concat]
      refine ⟨?_, later.trans (made_le_limiterFor _ _)⟩
      rcases lookup_limiterFor_other notBetween.2 with kept | evicted
      · rw [kept]
        exact same
      · exact .inr evicted

/-- A key is answered by the bucket of its previous call exactly if fewer than
`maxDistinctKeys` other keys were used in between. -/
theorem bucketAfter_eq_iff (earlier between : List String) (notBetween : key ∉ between) :
    bucketAfter (earlier ++ key :: between) key = bucketAfter earlier key ↔
      between.dedup.length < maxDistinctKeys := by
  have regroup : earlier ++ key :: between = (earlier ++ [key]) ++ between := by simp
  obtain ⟨el, first, isFirst⟩ := lookup_limiterFor (tableAfter earlier) key
  rw [← tableAfter_concat] at first
  obtain ⟨kept, later⟩ := tableAfter_others (earlier ++ [key]) between notBetween
  rw [← regroup, first] at kept
  rw [← regroup] at later
  have held : key ∈ (tableAfter (earlier ++ key :: between)).entries.keys ↔ _ :=
    (tableInvariant (earlier ++ key :: between)).mem_keys_iff
  rw [mem_take_recent_iff earlier notBetween, GoMap.mem_keys_iff] at held
  rw [← held, bucketAfter, bucketAfter, ← isFirst]
  rcases kept with kept | evicted
  · rw [LimiterTable.limiterFor, kept]
    exact iff_of_true rfl ⟨el, rfl⟩
  · rw [limiterFor_missing evicted, evicted]
    have older := (tableInvariant (earlier ++ [key])).made el
      (((tableInvariant (earlier ++ [key])).entries key el).mp first).1
    exact iff_of_false (Nat.ne_of_gt (Nat.lt_of_lt_of_le older later)) (by simp)

end Buckets

section Calls

/-- The table of a limiter after calls of `Allow`. -/
def RateLimitConfig.tableAfter (config : RateLimitConfig) (requests : List HttpRequest) :
    LimiterTable :=
  requests.foldl (fun table request => (config.allow table request).1) newTable

/-- The token bucket that answers a request after calls of `Allow`. -/
def RateLimitConfig.bucketAfter (config : RateLimitConfig) (requests : List HttpRequest)
    (request : HttpRequest) : Nat :=
  (config.allow (config.tableAfter requests) request).2

/-- The table after requests is the one after their keys. -/
theorem RateLimitConfig.tableAfter_eq (config : RateLimitConfig) (requests : List HttpRequest) :
    config.tableAfter requests = Ratelimit.tableAfter (requests.map config.bucketKey) := by
  rw [Ratelimit.tableAfter, List.foldl_map]
  rfl

/-- The bucket of a request is the one after the keys of the requests before. -/
theorem RateLimitConfig.bucketAfter_eq (config : RateLimitConfig) (requests : List HttpRequest)
    (request : HttpRequest) :
    config.bucketAfter requests request =
      Ratelimit.bucketAfter (requests.map config.bucketKey) (config.bucketKey request) := by
  rw [RateLimitConfig.bucketAfter, RateLimitConfig.tableAfter_eq]
  rfl

/-- Map and list agree on their keys, which are the keys used last. -/
structure IsLruTable (uses : List String) (table : LimiterTable) : Prop where
  /-- No key is in the list twice. -/
  unique : (table.lru.map LruElement.key).Nodup
  /-- The map finds exactly the elements of the list, each under its key. -/
  entries : ∀ key el, table.entries.lookup key = some el ↔ el ∈ table.lru ∧ el.key = key
  /-- The list is in the order of last use and forgets the keys that do not fit. -/
  order : table.lru.map LruElement.key = (recent uses).take maxDistinctKeys
  size : table.lru.length = min uses.dedup.length maxDistinctKeys

/-- After any calls of `Allow` the table holds the keys used last, and a key is answered by the
token bucket of its previous call as long as fewer than `maxDistinctKeys` others were used. -/
theorem RateLimitConfig.allow_isLru (config : RateLimitConfig) :
    (∀ requests, IsLruTable (requests.map config.bucketKey) (config.tableAfter requests)) ∧
      ∀ earlier first between last, config.bucketKey last = config.bucketKey first →
        config.bucketKey first ∉ between.map config.bucketKey →
          (config.bucketAfter (earlier ++ first :: between) last =
              config.bucketAfter earlier first ↔
            (between.map config.bucketKey).dedup.length < maxDistinctKeys) := by
  constructor
  · intro requests
    have invariant := tableInvariant (requests.map config.bucketKey)
    rw [config.tableAfter_eq]
    exact ⟨invariant.nodup_keys, invariant.entries, invariant.keys, invariant.length_lru⟩
  · intro earlier first between last same notBetween
    rw [config.bucketAfter_eq, config.bucketAfter_eq, same, List.map_append, List.map_cons]
    exact bucketAfter_eq_iff _ _ notBetween

/-- A request from an address. -/
def requestFrom (remoteIP : String) : HttpRequest :=
  ⟨"GET", "/", ∅, ∅, remoteIP, .absent⟩

/-- A client keeps its bucket while another one is served. -/
theorem allow_isLru_two_clients :
    (⟨"1", 1, "ip"⟩ : RateLimitConfig).bucketAfter
        [requestFrom "10.0.0.1", requestFrom "10.0.0.2"] (requestFrom "10.0.0.1") =
      (⟨"1", 1, "ip"⟩ : RateLimitConfig).bucketAfter [] (requestFrom "10.0.0.1") :=
  ((RateLimitConfig.allow_isLru ⟨"1", 1, "ip"⟩).2 [] (requestFrom "10.0.0.1")
    [requestFrom "10.0.0.2"] (requestFrom "10.0.0.1") rfl (by decide)).mpr (by decide)

end Calls

end Restitch.Ratelimit
