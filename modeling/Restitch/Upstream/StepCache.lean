import Mathlib.Logic.Function.Basic
import Restitch.Http.Url
import Restitch.Semantics.Transition
import Restitch.Std.GoMap

/-!
# The sharded step cache (`internal/upstream/cache.go`)

A `Get` and a `Set` hold the lock of one shard and read the clock under it. A sweep reads the
clock once and then locks one shard after the other, so other operations come in between. To
its callers the cache is a map that remembers the last `Set` of every key for its ttl.
-/

namespace Restitch.Upstream

open Restitch.Http Restitch.Semantics Restitch.Std

universe u

variable {Response : Type u}

/-- `numShards`. -/
abbrev numShards : Nat := 16

/-- `cacheEntry`. -/
structure CacheEntry (Response : Type u) where
  resp : Response
  expires : Int

/-- The shards of a `StepCache`. -/
abbrev StepCache (Response : Type u) := Fin numShards → GoMap String (CacheEntry Response)

/-- `StepCache.shard`. -/
def shardOf (key : String) : Fin numShards :=
  let hash := (utf8 key.toList).foldl (fun hash byte => hash * 31 + byte.toUInt32) (0 : UInt32)
  Fin.ofNat numShards hash.toNat

/-- `StepCache.Get` at a time, where keys are in the shards that `place` says. -/
def StepCache.get (cache : StepCache Response) (place : String → Fin numShards) (now : Int)
    (key : String) : Option Response :=
  match (cache (place key)).lookup key with
  | none => none
  | some entry => if entry.expires < now then none else some entry.resp

/-- `StepCache.Set` at a time. -/
def StepCache.set (cache : StepCache Response) (place : String → Fin numShards) (now : Int)
    (key : String) (resp : Response) (ttl : Int) : StepCache Response :=
  Function.update cache (place key) ((cache (place key)).insert key ⟨resp, now + ttl⟩)

/-- What a sweep does under the lock of one shard. -/
def StepCache.sweepShard (cache : StepCache Response) (now : Int) (shard : Fin numShards) :
    StepCache Response :=
  Function.update cache shard ((cache shard).filterValues fun entry => ¬ entry.expires < now)

/-- A running sweep: the time it read, and the shards it has not locked yet. -/
structure Sweep where
  now : Int
  rest : List (Fin numShards)

/-- A cache, the clock and the sweeps of the cache that are not over. -/
structure CacheState (Response : Type u) where
  now : Int
  cache : StepCache Response
  sweeps : List Sweep

/-- A `Get` changes nothing and is no event. -/
inductive CacheEvent (Response : Type u) where
  | advance (elapsed : Nat)
  | set (key : String) (resp : Response) (ttl : Int)
  | startSweep
  /-- A running sweep locks its next shard. -/
  | sweepShard (index : Nat)

/-- `NewStepCache`. -/
def newStepCache (now : Int) : CacheState Response := ⟨now, fun _ => ∅, []⟩

def cacheStep (place : String → Fin numShards) (state : CacheState Response) :
    CacheEvent Response → Option (CacheState Response)
  | .advance elapsed => some { state with now := state.now + elapsed }
  | .set key resp ttl => some { state with cache := state.cache.set place state.now key resp ttl }
  | .startSweep =>
      some { state with sweeps := state.sweeps ++ [⟨state.now, List.finRange numShards⟩] }
  | .sweepShard index =>
      match state.sweeps[index]? with
      | some ⟨now, shard :: rest⟩ =>
          some { state with
            cache := state.cache.sweepShard now shard
            sweeps := state.sweeps.set index ⟨now, rest⟩ }
      | _ => none

/-- Operations and sweeps of one cache in any interleaving. -/
def cacheSystem (place : String → Fin numShards) :
    System (CacheState Response) (CacheEvent Response) :=
  .ofStep (fun state => ∃ now, state = newStepCache now) (cacheStep place)

section Abstract

/-- A `Set` as the plain map remembers it. -/
structure StoredResponse (Response : Type u) where
  resp : Response
  storedAt : Int
  ttl : Int

/-- A plain map with a ttl: the clock, and the last `Set` of every key. -/
structure TTLMap (Response : Type u) where
  now : Int
  last : String → Option (StoredResponse Response)

/-- What the map holds for a key at a time. -/
def TTLMap.get (plain : TTLMap Response) (now : Int) (key : String) : Option Response :=
  (plain.last key).bind fun stored =>
    if now ≤ stored.storedAt + stored.ttl then some stored.resp else none

/-- The map after an event. It has no shards and no sweeps. -/
def TTLMap.after (plain : TTLMap Response) : CacheEvent Response → TTLMap Response
  | .advance elapsed => { plain with now := plain.now + elapsed }
  | .set key resp ttl =>
      { plain with last := Function.update plain.last key (some ⟨resp, plain.now, ttl⟩) }
  | .startSweep | .sweepShard _ => plain

/-- The map after events, oldest first. -/
def ttlMapAfter (start : Int) (events : List (CacheEvent Response)) : TTLMap Response :=
  events.foldl TTLMap.after ⟨start, fun _ => none⟩

/-- The last event comes last. -/
theorem ttlMapAfter_concat (start : Int) (events : List (CacheEvent Response))
    (event : CacheEvent Response) :
    ttlMapAfter start (events ++ [event]) = (ttlMapAfter start events).after event := by
  rw [ttlMapAfter, List.foldl_append]
  rfl

end Abstract

section Simulation

variable {place : String → Fin numShards} {state next : CacheState Response}
  {plain : TTLMap Response} {event : CacheEvent Response}

/-- The entry under a key is its last `Set`, unless that is over already. -/
structure SimulatesTTLMap (place : String → Fin numShards) (state : CacheState Response)
    (plain : TTLMap Response) : Prop where
  clock : state.now = plain.now
  held : ∀ key entry, (state.cache (place key)).lookup key = some entry →
    ∃ stored, plain.last key = some stored ∧ entry = ⟨stored.resp, stored.storedAt + stored.ttl⟩
  expired : ∀ key stored, (state.cache (place key)).lookup key = none →
    plain.last key = some stored → stored.storedAt + stored.ttl < state.now
  started : ∀ sweep ∈ state.sweeps, sweep.now ≤ state.now

/-- From now on a `Get` is answered as by the plain map. -/
theorem SimulatesTTLMap.get_eq (simulates : SimulatesTTLMap place state plain) {time : Int}
    (later : state.now ≤ time) (key : String) :
    state.cache.get place time key = plain.get time key := by
  rw [StepCache.get, TTLMap.get]
  cases found : (state.cache (place key)).lookup key with
  | some entry =>
      obtain ⟨stored, isLast, rfl⟩ := simulates.held key entry found
      rw [isLast, Option.bind_some]
      dsimp only
      by_cases expired : stored.storedAt + stored.ttl < time
      · rw [if_pos expired, if_neg (Int.not_le.mpr expired)]
      · rw [if_neg expired, if_pos (Int.not_lt.mp expired)]
  | none =>
      cases isLast : plain.last key with
      | none => rfl
      | some stored =>
          have expired := simulates.expired key stored found isLast
          rw [Option.bind_some, if_neg (Int.not_le.mpr (Int.lt_of_lt_of_le expired later))]

/-- A new cache simulates the empty map. -/
theorem simulatesTTLMap_new (place : String → Fin numShards) (start : Int) :
    SimulatesTTLMap place (newStepCache start) (⟨start, fun _ => none⟩ : TTLMap Response) where
  clock := rfl
  held := nofun
  expired := nofun
  started := nofun

/-- Time passes for both. -/
theorem SimulatesTTLMap.advance (simulates : SimulatesTTLMap place state plain) (elapsed : Nat) :
    SimulatesTTLMap place { state with now := state.now + elapsed }
      (plain.after (.advance elapsed)) where
  clock := congrArg (· + (elapsed : Int)) simulates.clock
  held := simulates.held
  expired key stored missing isLast := by
    have expired := simulates.expired key stored missing isLast
    dsimp only
    omega
  started sweep member := by
    have started := simulates.started sweep member
    dsimp only
    omega

/-- A `Set` changes its own key only, whatever else its shard holds. -/
theorem lookup_set (cache : StepCache Response) (place : String → Fin numShards) (now : Int)
    (key : String) (resp : Response) (ttl : Int) (other : String) :
    ((cache.set place now key resp ttl) (place other)).lookup other =
      if other = key then some ⟨resp, now + ttl⟩ else (cache (place other)).lookup other := by
  rw [StepCache.set]
  by_cases same : other = key
  · subst same
    rw [Function.update_self, AList.lookup_insert, if_pos rfl]
  · rw [if_neg same]
    by_cases shared : place other = place key
    · rw [shared, Function.update_self, AList.lookup_insert_ne same]
    · rw [Function.update_of_ne shared]

/-- Storing a response is storing it in the map. -/
theorem SimulatesTTLMap.set (simulates : SimulatesTTLMap place state plain) (key : String)
    (resp : Response) (ttl : Int) :
    SimulatesTTLMap place { state with cache := state.cache.set place state.now key resp ttl }
      (plain.after (.set key resp ttl)) where
  clock := simulates.clock
  held other entry found := by
    rw [lookup_set] at found
    dsimp only [TTLMap.after]
    by_cases same : other = key
    · subst same
      rw [if_pos rfl, Option.some_inj] at found
      rw [Function.update_self, ← found, simulates.clock]
      exact ⟨_, rfl, rfl⟩
    · rw [if_neg same] at found
      rw [Function.update_of_ne same]
      exact simulates.held other entry found
  expired other stored missing isLast := by
    rw [lookup_set] at missing
    dsimp only [TTLMap.after] at isLast
    by_cases same : other = key
    · rw [if_pos same] at missing
      cases missing
    · rw [if_neg same] at missing
      rw [Function.update_of_ne same] at isLast
      exact simulates.expired other stored missing isLast
  started := simulates.started

/-- A sweep that starts changes nothing. -/
theorem SimulatesTTLMap.startSweep (simulates : SimulatesTTLMap place state plain) :
    SimulatesTTLMap place
      { state with sweeps := state.sweeps ++ [⟨state.now, List.finRange numShards⟩] }
      (plain.after .startSweep) where
  clock := simulates.clock
  held := simulates.held
  expired := simulates.expired
  started sweep member := by
    rw [List.mem_append, List.mem_singleton] at member
    rcases member with earlier | rfl
    · exact simulates.started sweep earlier
    · exact Int.le_refl _

/-- Sweeping a shard removes the entries that were over when the sweep began. -/
theorem lookup_sweepShard (cache : StepCache Response) (place : String → Fin numShards)
    (now : Int) (shard : Fin numShards) (key : String) :
    ((cache.sweepShard now shard) (place key)).lookup key =
      ((cache (place key)).lookup key).filter fun entry =>
        ¬ (place key = shard ∧ entry.expires < now) := by
  rw [StepCache.sweepShard]
  by_cases here : place key = shard
  · subst here
    rw [Function.update_self, GoMap.lookup_filterValues]
    simp
  · rw [Function.update_of_ne here]
    cases (cache (place key)).lookup key with
    | none => rfl
    | some entry =>
        symm
        exact Option.filter_eq_some_iff.mpr ⟨rfl, decide_eq_true fun both => here both.1⟩

/-- Sweeping a shard removes only what has expired. -/
theorem SimulatesTTLMap.sweepShard (simulates : SimulatesTTLMap place state plain) {index : Nat}
    {now : Int} {shard : Fin numShards} {rest : List (Fin numShards)}
    (running : state.sweeps[index]? = some ⟨now, shard :: rest⟩) :
    SimulatesTTLMap place
      { state with
        cache := state.cache.sweepShard now shard
        sweeps := state.sweeps.set index ⟨now, rest⟩ }
      (plain.after (.sweepShard index)) where
  clock := simulates.clock
  held key entry found := by
    rw [lookup_sweepShard, Option.filter_eq_some_iff] at found
    exact simulates.held key entry found.1
  expired key stored missing isLast := by
    rw [lookup_sweepShard] at missing
    cases found : (state.cache (place key)).lookup key with
    | none => exact simulates.expired key stored found isLast
    | some entry =>
        -- The entry is removed now, so it was over when the sweep read the clock.
        rw [found, Option.filter_eq_none_iff] at missing
        have removed := missing entry rfl
        obtain ⟨last, isStored, rfl⟩ := simulates.held key entry found
        cases isStored.symm.trans isLast
        have began := simulates.started _ (List.mem_of_getElem? running)
        have expired : stored.storedAt + stored.ttl < now := by
          by_contra kept
          exact removed (decide_eq_true fun both => kept both.2)
        exact Int.lt_of_lt_of_le expired began
  started sweep member := by
    rcases List.mem_or_eq_of_mem_set member with earlier | rfl
    · exact simulates.started sweep earlier
    · have began := simulates.started _ (List.mem_of_getElem? running)
      exact began

/-- Every event keeps the relation to the plain map. -/
theorem SimulatesTTLMap.step (simulates : SimulatesTTLMap place state plain)
    (taken : cacheStep place state event = some next) :
    SimulatesTTLMap place next (plain.after event) := by
  cases event with
  | advance elapsed =>
      cases taken
      exact simulates.advance elapsed
  | set key resp ttl =>
      cases taken
      exact simulates.set key resp ttl
  | startSweep =>
      cases taken
      exact simulates.startSweep
  | sweepShard index =>
      rw [cacheStep] at taken
      split at taken
      · rename_i now shard rest running
        cases taken
        exact simulates.sweepShard running
      · cases taken

/-- Every run keeps the relation to the plain map. -/
theorem simulatesTTLMap_of_steps {start : Int} {events : List (CacheEvent Response)}
    (steps : (cacheSystem place).Steps (newStepCache start) events state) :
    SimulatesTTLMap place state (ttlMapAfter start events) := by
  induction steps with
  | refl => exact simulatesTTLMap_new place start
  | step _ transition ih =>
      rw [ttlMapAfter_concat]
      exact ih.step transition

end Simulation

/-- The events of a sweep. -/
def CacheEvent.IsSweep : CacheEvent Response → Prop
  | .startSweep | .sweepShard _ => True
  | .advance _ | .set _ _ _ => False

/-- A sweep is nothing to the plain map. -/
theorem TTLMap.after_sweep (plain : TTLMap Response) {event : CacheEvent Response}
    (isSweep : event.IsSweep) : plain.after event = plain := by
  cases event with
  | startSweep | sweepShard => rfl
  | advance | set => exact isSweep.elim

/-- After any operations and sweeps in any interleaving, a `Get` at any later time is answered
as by the plain map. No step of a sweep changes an answer, nor would other shards for the
keys. -/
theorem stepCache_refines_ttlMap {start : Int} {events : List (CacheEvent Response)}
    {state : CacheState Response}
    (steps : (cacheSystem shardOf).Steps (newStepCache start) events state) :
    (∀ time key, state.now ≤ time →
        state.cache.get shardOf time key = (ttlMapAfter start events).get time key) ∧
      (∀ event next, event.IsSweep → (cacheSystem shardOf).Step state event next →
        ∀ time key, state.now ≤ time →
          next.cache.get shardOf time key = state.cache.get shardOf time key) ∧
      ∀ place other, (cacheSystem place).Steps (newStepCache start) events other →
        ∀ time key, state.now ≤ time →
          other.cache.get place time key = state.cache.get shardOf time key := by
  have simulates := simulatesTTLMap_of_steps steps
  refine ⟨fun time key later => simulates.get_eq later key, ?_, ?_⟩
  · intro event next isSweep taken time key later
    have swept := simulates.step taken
    rw [TTLMap.after_sweep _ isSweep] at swept
    rw [simulates.get_eq later, swept.get_eq]
    rw [swept.clock, ← simulates.clock]
    exact later
  · intro place other otherSteps time key later
    have otherSimulates := simulatesTTLMap_of_steps otherSteps
    rw [simulates.get_eq later, otherSimulates.get_eq]
    rw [otherSimulates.clock, ← simulates.clock]
    exact later

/-- An entry with a ttl of ten is swept at time eleven, while another key is set. -/
def sweptRun : List (CacheEvent String) :=
  [.set "a" "old" 10, .advance 11, .startSweep, .sweepShard 0, .set "b" "new" 5, .sweepShard 0]

/-- After the sweep both answer alike for the expired key. -/
theorem stepCache_refines_ttlMap_sweptRun :
    ∃ state, (cacheSystem shardOf).Steps (newStepCache 0) sweptRun state ∧
      state.cache.get shardOf 11 "a" = (ttlMapAfter 0 sweptRun).get 11 "a" := by
  have ends : System.replay (cacheStep shardOf) (newStepCache 0) sweptRun = some _ := rfl
  have steps : (cacheSystem shardOf).Steps (newStepCache 0) ([] ++ sweptRun) _ :=
    System.steps_of_replay _ .refl ends
  exact ⟨_, steps, (stepCache_refines_ttlMap steps).1 11 "a" (by decide)⟩

end Restitch.Upstream
