import Restitch.Composition.CallPhases

/-!
# The age of cached responses (`cache.go`, `executor.go`)

An entry expires when the ttl of the step that stored it is over. A step that
would send the same request is answered from it whatever its own ttl is. The state
of the executor is kept here with the time and the ttl of the last `Set` under each
key, and with every answer from the cache.
-/

namespace Restitch.Composition

open Restitch.Semantics

variable {Value : Type}

/-- The `Set` that an event makes: key, response and ttl. -/
def setOf (state : SharedState Value) : SharedEvent Value → Option (String × CachedResponse × Nat)
  | .fill call =>
      (state.calls call).bind fun step =>
        match step.phase with
        | .returned _ (.ok result) =>
            (fillTTL step.settings result).map fun ttl =>
              (step.key, ⟨result.status, result.headers, result.rawBody⟩, ttl)
        | _ => none
  | _ => none

/-- The step that an event answers from the cache, with its ttl. -/
def hitOf (state : SharedState Value) : SharedEvent Value → Option (StepCall Value × Nat)
  | .lookup call =>
      (state.calls call).bind fun step =>
        step.settings.cacheTTL.bind fun ttl =>
          if step.settings.method = "GET" ∧ (cacheGet state.cache state.now step.key).isSome then
            some (step, ttl)
          else none
  | _ => none

/-- An answer from the cache: the ttl of the step, when it got the answer, and when
the answer was stored. -/
structure CacheHit where
  ttl : Nat
  time : Nat
  storedAt : Nat

structure AgedState (Value : Type) where
  shared : SharedState Value
  /-- Time and ttl of the last `Set` under a key. -/
  stored : String → Option (Nat × Nat)
  hits : List CacheHit

def storedAfter (state : AgedState Value) (event : SharedEvent Value) :
    String → Option (Nat × Nat) :=
  match setOf state.shared event with
  | some (key, _, ttl) => Function.update state.stored key (some (state.shared.now, ttl))
  | none => state.stored

def hitsAfter (state : AgedState Value) (event : SharedEvent Value) : List CacheHit :=
  match hitOf state.shared event with
  | some (step, ttl) =>
      match state.stored step.key with
      | some (storedAt, _) => state.hits ++ [⟨ttl, state.shared.now, storedAt⟩]
      | none => state.hits
  | none => state.hits

def agedStep (decoder : BodyDecoder Value) (state : AgedState Value) (event : SharedEvent Value) :
    Option (AgedState Value) :=
  (sharedStep decoder state.shared event).map fun shared =>
    ⟨shared, storedAfter state event, hitsAfter state event⟩

/-- Any number of step executions on one executor, with the history of its cache. -/
def agedSystem (decoder : BodyDecoder Value) : System (AgedState Value) (SharedEvent Value) :=
  .ofStep (· = ⟨newExecutor, fun _ => none, []⟩) (agedStep decoder)

/-- A step is answered only from entries that were stored with a ttl no longer than
its own. -/
def StoredForNoLonger (state : AgedState Value) (event : SharedEvent Value) : Prop :=
  ∀ step ttl storedAt storedTTL, hitOf state.shared event = some (step, ttl) →
    state.stored step.key = some (storedAt, storedTTL) → storedTTL ≤ ttl

section Invariant

variable {decoder : BodyDecoder Value} {shared nextShared : SharedState Value}
  {event : SharedEvent Value} {key : String} {state next : AgedState Value}

/-- A step that stores a response replaces the entry of its key. -/
theorem SharedMove.cache_of_set (move : SharedMove decoder shared nextShared event)
    {response : CachedResponse} {ttl : Nat} (set : setOf shared event = some (key, response, ttl)) :
    nextShared.cache = cacheSet shared.cache shared.now key response ttl := by
  cases event with
  | start | lookup | proceed | respond | receive | tick | sweep => cases set
  | fill call =>
      cases move with
      | quiet idle => cases idle
      | @move _ _ step _ present moves _ _ _ cache =>
          cases moves with
          | @finish source outcome at_ =>
              rw [cache]
              simp only [setOf, present, Option.bind_some, at_] at set
              cases outcome with
              | error error => cases set
              | ok result =>
                  obtain ⟨filled, stored, same⟩ := Option.map_eq_some_iff.mp set
                  cases same
                  simp only [cacheAfter, at_, fillCache, stored]

/-- A step that stores nothing adds no entry. -/
theorem SharedMove.cache_of_no_set (move : SharedMove decoder shared nextShared event)
    (set : setOf shared event = none) {entry : CacheEntry}
    (found : nextShared.cache key = some entry) : shared.cache key = some entry := by
  cases move with
  | quiet _ _ _ _ cache => exact cache key entry found
  | start _ _ _ _ cache =>
      rw [cache] at found
      exact found
  | move present moves _ _ _ cache =>
      rw [cache] at found
      cases moves with
      | miss | join | lead | send | exchange | receive | refuse => exact found
      | hit at_ =>
          simp only [cacheAfter, at_] at found
          exact found
      | @finish source outcome at_ =>
          cases outcome with
          | error error => exact found
          | ok result =>
              simp only [setOf, present, Option.bind_some, at_] at set
              simp only [cacheAfter, at_, fillCache, Option.map_eq_none_iff.mp set] at found
              exact found

/-- Every entry expires when the ttl of its `Set` is over, and no answer was older than
the ttl of the step that got it. -/
structure AgeInvariant (state : AgedState Value) : Prop where
  stored : ∀ key entry, state.shared.cache key = some entry → ∃ storedAt ttl,
    state.stored key = some (storedAt, ttl) ∧ entry.expires = storedAt + ttl
  hits : ∀ hit ∈ state.hits, hit.time ≤ hit.storedAt + hit.ttl

/-- A hit finds an entry that has not expired. -/
theorem hitOf_entry {step : StepCall Value} {ttl : Nat}
    (hit : hitOf shared event = some (step, ttl)) :
    ∃ entry, shared.cache step.key = some entry ∧ shared.now ≤ entry.expires := by
  cases event with
  | start | proceed | respond | receive | fill | tick | sweep => cases hit
  | lookup call =>
      obtain ⟨found, -, hit⟩ := Option.bind_eq_some_iff.mp hit
      obtain ⟨own, -, hit⟩ := Option.bind_eq_some_iff.mp hit
      split at hit
      · rename_i answered
        cases hit
        obtain ⟨response, isResponse⟩ := Option.isSome_iff_exists.mp answered.2
        unfold cacheGet at isResponse
        split at isResponse
        · rename_i entry isEntry
          split at isResponse
          · rename_i inTime
            exact ⟨entry, isEntry, inTime⟩
          · cases isResponse
        · cases isResponse
      · cases hit

/-- The times of the entries after an event. -/
theorem AgeInvariant.stored_step (invariant : AgeInvariant state)
    (move : SharedMove decoder state.shared nextShared event) {entry : CacheEntry}
    (found : nextShared.cache key = some entry) : ∃ storedAt ttl,
      storedAfter state event key = some (storedAt, ttl) ∧ entry.expires = storedAt + ttl := by
  unfold storedAfter
  cases set : setOf state.shared event with
  | none => exact invariant.stored key entry (move.cache_of_no_set set found)
  | some made =>
      obtain ⟨name, response, ttl⟩ := made
      dsimp only
      rw [move.cache_of_set set, cacheSet] at found
      by_cases same : key = name
      · subst same
        rw [Function.update_self] at found
        cases found
        exact ⟨state.shared.now, ttl, by rw [Function.update_self], rfl⟩
      · rw [Function.update_of_ne same] at found
        obtain ⟨storedAt, own, isStored, expires⟩ := invariant.stored key entry found
        exact ⟨storedAt, own, by rw [Function.update_of_ne same]; exact isStored, expires⟩

/-- An answer from an entry with a ttl no longer than the own one is young enough. -/
theorem AgeInvariant.hits_step (invariant : AgeInvariant state)
    (fresh : StoredForNoLonger state event) :
    ∀ hit ∈ hitsAfter state event, hit.time ≤ hit.storedAt + hit.ttl := by
  intro hit member
  unfold hitsAfter at member
  split at member
  · rename_i step ttl answered
    split at member
    · rename_i storedAt storedTTL isStored
      rcases List.mem_append.mp member with old | new
      · exact invariant.hits hit old
      · cases List.mem_singleton.mp new
        obtain ⟨entry, found, inTime⟩ := hitOf_entry answered
        obtain ⟨at_, own, isAt, expires⟩ := invariant.stored step.key entry found
        rw [isStored] at isAt
        cases isAt
        have shorter := fresh step ttl storedAt storedTTL answered isStored
        calc state.shared.now ≤ entry.expires := inTime
          _ = storedAt + storedTTL := expires
          _ ≤ storedAt + ttl := Nat.add_le_add_left shorter _
    · exact invariant.hits hit member
  · exact invariant.hits hit member

end Invariant

/-- In every run in which steps are answered only from entries that were stored with a
ttl no longer than their own, no answer is older than the ttl of the step that got it:
for any interleaving of any number of step executions. -/
theorem cached_answers_within_ttl (decoder : BodyDecoder Value) (state : AgedState Value)
    (reached : ((agedSystem decoder).restrict StoredForNoLonger).Reachable state) :
    ∀ hit ∈ state.hits, hit.time ≤ hit.storedAt + hit.ttl := by
  suffices AgeInvariant state from this.hits
  refine System.Reachable.induction AgeInvariant ?_ ?_ reached
  · intro state valid
    cases valid
    exact ⟨nofun, nofun⟩
  · rintro state event next - invariant ⟨stepped, fresh⟩
    obtain ⟨shared, moved, rfl⟩ := Option.map_eq_some_iff.mp stepped
    have move := sharedStep_move moved
    exact ⟨fun key entry => invariant.stored_step move, invariant.hits_step fresh⟩

/-- One step stores an answer, and another one that sends the same request asks for it
after some time. -/
def storeThenAsk (storedTTL ttl wait : Nat) : List (SharedEvent Unit) :=
  let response : UpstreamResponse := ⟨200, [], []⟩
  [.start 0 ⟨"GET", some storedTTL, false, [], 0⟩ "key", .lookup 0, .proceed 0,
   .respond 0 (.ok response), .fill 0] ++ List.replicate wait .tick ++
  [.start 1 ⟨"GET", some ttl, false, [], 0⟩ "key", .lookup 1]

/-- `StoredForNoLonger`, as a test. -/
def storedForNoLonger (state : AgedState Unit) (event : SharedEvent Unit) : Bool :=
  match hitOf state.shared event with
  | some (step, ttl) =>
      match state.stored step.key with
      | some (_, storedTTL) => storedTTL ≤ ttl
      | none => true
  | none => true

/-- A step with a ttl of 60 is answered 30 after a step with a ttl of 60 stored. -/
theorem cached_answers_within_ttl_of_same :
    ∃ state : AgedState Unit, state.hits = [⟨60, 30, 0⟩] ∧
      ∀ hit ∈ state.hits, hit.time ≤ hit.storedAt + hit.ttl := by
  have weakens : ∀ state event, storedForNoLonger state event = true → StoredForNoLonger state event := by
    intro state event met step ttl storedAt storedTTL answered isStored
    simp only [storedForNoLonger, answered, isStored, decide_eq_true_eq] at met
    exact met
  have ends : (System.replay (System.guarded (agedStep unitDecoder) fun state event =>
      storedForNoLonger state event = true) ⟨newExecutor, fun _ => none, []⟩ (storeThenAsk 60 60 30)).map
        (fun state => state.hits.map fun hit => (hit.ttl, hit.time, hit.storedAt)) =
      some [(60, 30, 0)] := by
    decide +kernel
  obtain ⟨final, replayed, hits⟩ := Option.map_eq_some_iff.mp ends
  have reached : ((agedSystem unitDecoder).restrict fun state event =>
      storedForNoLonger state event = true).Reachable final :=
    System.reachable_of_guarded _ (.initial rfl) replayed
  refine ⟨final, ?_, cached_answers_within_ttl unitDecoder final (reached.restrict_mono weakens)⟩
  obtain ⟨hit, isHits, same⟩ := List.map_eq_singleton_iff.mp hits
  cases hit
  cases same
  exact isHits

/-- A step with a ttl of 1 is answered 30 after a step with a ttl of 60 stored. -/
theorem cached_answer_older_than_ttl :
    ∃ state, (agedSystem unitDecoder).Reachable state ∧
      ∃ hit ∈ state.hits, hit.storedAt + hit.ttl < hit.time := by
  have ends : (System.replay (agedStep unitDecoder) ⟨newExecutor, fun _ => none, []⟩
      (storeThenAsk 60 1 30)).map
        (fun state => state.hits.map fun hit => (hit.ttl, hit.time, hit.storedAt)) =
      some [(1, 30, 0)] := by
    decide +kernel
  obtain ⟨final, replayed, hits⟩ := Option.map_eq_some_iff.mp ends
  obtain ⟨hit, isHits, same⟩ := List.map_eq_singleton_iff.mp hits
  cases hit
  cases same
  refine ⟨final, System.reachable_of_replay _ (.initial rfl) replayed, ⟨1, 30, 0⟩, ?_, by decide⟩
  rw [isHits]
  exact List.mem_singleton_self _

end Restitch.Composition
