import Restitch.Composition.SharedRules
import Restitch.Std.Json

/-!
# A hit and the result that was stored (`executor.go`, `step.go`)

A step stores the response it was sent, and a later hit reads it again. Both readings
agree but for a body whose value is nil: a fresh result has the nil value, a hit the text.
-/

namespace Restitch.Composition

open Restitch.Http Restitch.Semantics Restitch.Std

variable {Value : Type}

/-- A step execution stores the result it made of a response, and a later one with its key
finds that entry: the states right before and after the fill and before and after the
lookup, with the run between them. -/
structure StoredThenHit (decoder : BodyDecoder Value) (settings : StepSettings Value)
    (response : UpstreamResponse) (result hit : StepResult Value) where
  before : SharedState Value
  filled : SharedState Value
  later : SharedState Value
  next : SharedState Value
  maker : CallId
  call : CallId
  step : StepCall Value
  other : StepCall Value
  between : List (SharedEvent Value)
  reached : (sharingSystem decoder).Reachable before
  made : before.calls maker = some step
  isSettings : step.settings = settings
  returned : step.phase = .returned .own (.ok result)
  own : sendStepRequest decoder settings (.ok response) = .ok result
  fills : sharedStep decoder before (.fill maker) = some filled
  run : (sharingSystem decoder).Steps filled between later
  kept : later.cache step.key = filled.cache step.key
  asks : later.calls call = some other
  sameKey : other.key = step.key
  looks : sharedStep decoder later (.lookup call) = some next
  answered : (next.calls call).map StepCall.phase = some (.finished .cache (.ok hit))

/-- A step stores what it makes of a response. -/
def Stores (decoder : BodyDecoder Value) (settings : StepSettings Value)
    (response : UpstreamResponse) : Prop :=
  ∃ result, sendStepRequest decoder settings (.ok response) = .ok result ∧
    (fillTTL settings result).isSome = true

/-- The body is no JSON text whose value is nil. -/
def NotNil (decoder : BodyDecoder Value) (response : UpstreamResponse) : Prop :=
  ∀ value, parseJSONBody decoder response.body (response.header.get "Content-Type") = some value →
    decoder.isNil value = false

section Hits

variable {decoder : BodyDecoder Value} {settings : StepSettings Value}
  {response : UpstreamResponse} {result hit : StepResult Value}

/-- The fill of a result that may be stored writes the response it was made of. -/
theorem cache_of_fill {state filled : SharedState Value} {maker : CallId} {step : StepCall Value}
    (made : state.calls maker = some step) (returned : step.phase = .returned .own (.ok result))
    (own : sendStepRequest decoder step.settings (.ok response) = .ok result) {ttl : Nat}
    (stored : fillTTL step.settings result = some ttl)
    (fills : sharedStep decoder state (.fill maker) = some filled) :
    filled.cache step.key = some ⟨response.cached, state.now + ttl⟩ := by
  simp only [sharedStep, made, Option.bind_some, callStep, returned] at fills
  cases fills
  dsimp only
  rw [fillCache, stored, sendStepRequest_kept own]
  exact Function.update_self ..

/-- A hit is the cached result of the entry. -/
theorem hit_of_lookup {later next : SharedState Value} {call : CallId} {other : StepCall Value}
    {entry : CacheEntry} (asks : later.calls call = some other)
    (looks : sharedStep decoder later (.lookup call) = some next)
    (found : later.cache other.key = some entry)
    (answered : (next.calls call).map StepCall.phase = some (.finished .cache (.ok hit))) :
    hit = cachedResult decoder entry.response := by
  simp only [sharedStep, asks, Option.bind_some, callStep] at looks
  split at looks
  · cases looks
    rw [lookupStep] at answered
    split at answered
    · rw [cacheGet, found] at answered
      dsimp only at answered
      split at answered
      · rename_i cached fresh
        split at fresh
        · cases fresh
          rw [SharedState.setPhase_calls, Function.update_self] at answered
          cases answered
          rfl
        · cases fresh
      · rw [SharedState.setPhase_calls, Function.update_self] at answered
        cases answered
    · rw [SharedState.setPhase_calls, Function.update_self] at answered
      cases answered
  · cases looks

/-- A step that stores its result is matched by none of its rules. -/
theorem acceptsCached_iff_of_stores
    (own : sendStepRequest decoder settings (.ok response) = .ok result) {ttl : Nat}
    (stored : fillTTL settings result = some ttl) :
    AcceptsCached decoder settings response ↔ NotNil decoder response := by
  obtain ⟨within, made⟩ := sendStepRequest_eq_ok_iff.mp own
  have unmatched : matchErrorRule response.status settings.errorRules = none := by
    rw [fillTTL, Option.ite_none_right_eq_some] at stored
    have free := stored.1.2.2.1
    rw [made] at free
    exact Option.not_isSome_iff_eq_none.mp free
  rw [AcceptsCached, NotNil]
  exact ⟨fun accepts => accepts.2.2, fun notNil => ⟨within, unmatched, notNil⟩⟩

/-- What a hit makes of the entry of a fill. -/
theorem StoredThenHit.hit_eq (hits : StoredThenHit decoder settings response result hit)
    {ttl : Nat} (stored : fillTTL settings result = some ttl) :
    hit = cachedResult decoder response.cached := by
  have same := hits.isSettings
  have own := hits.own
  rw [← same] at own stored
  have filled := cache_of_fill hits.made hits.returned own stored hits.fills
  rw [← hits.kept, ← hits.sameKey] at filled
  exact hit_of_lookup hits.asks hits.looks filled hits.answered

/-- One step execution up to the result of its exchange. -/
def exchangeEvents (settings : StepSettings Value) (response : UpstreamResponse) :
    List (SharedEvent Value) :=
  [.start 0 settings "key", .lookup 0, .proceed 0, .respond 0 (.ok response)]

/-- An exchange of a new executor ends with the result. -/
theorem exists_exchanged (own : sendStepRequest decoder settings (.ok response) = .ok result)
    (get : settings.method = "GET") :
    ∃ state, (sharingSystem decoder).Reachable state ∧
      state.calls 0 = some ⟨settings, "key", .returned .own (.ok result)⟩ ∧
      state.calls 1 = none := by
  have ends : ∃ state, System.replay (sharedStep decoder) newExecutor
      (exchangeEvents settings response) = some state ∧
      state.calls 0 = some ⟨settings, "key", .returned .own (.ok result)⟩ ∧
      state.calls 1 = none := by
    by_cases coalesce : settings.coalesce = true <;>
      simp [exchangeEvents, System.replay, sharedStep, callStep, lookupStep, proceedStep,
        newExecutor, cacheGet, SharedState.setPhase, own, coalesce, get, Function.update]
  obtain ⟨state, replayed, calls⟩ := ends
  exact ⟨state, System.reachable_of_replay _ (.initial rfl) replayed, calls⟩

/-- A stored result is hit by the next execution of the step. -/
theorem exists_storedThenHit (own : sendStepRequest decoder settings (.ok response) = .ok result)
    {ttl : Nat} (stored : fillTTL settings result = some ttl) :
    Nonempty (StoredThenHit decoder settings response result
      (cachedResult decoder response.cached)) := by
  have isTTL : settings.cacheTTL.isSome = true ∧ settings.method = "GET" := by
    rw [fillTTL, Option.ite_none_right_eq_some] at stored
    exact ⟨stored.2 ▸ rfl, stored.1.1⟩
  obtain ⟨state, reached, made, free⟩ := exists_exchanged own isTTL.2
  let step : StepCall Value := ⟨settings, "key", .returned .own (.ok result)⟩
  let filled : SharedState Value :=
    { state.setPhase 0 step (.finished .own (.ok result)) with
      cache := fillCache state step result }
  let other : StepCall Value := ⟨settings, "key", .built⟩
  let later : SharedState Value :=
    { filled with calls := Function.update filled.calls 1 (some other) }
  have fills : sharedStep decoder state (.fill 0) = some filled := by
    simp only [sharedStep, made, Option.bind_some, callStep]
    rfl
  have starts : sharedStep decoder filled (.start 1 settings "key") = some later := by
    have absent : filled.calls 1 = none := by
      simpa [filled] using free
    simp only [sharedStep, absent]
    rfl
  have asks : later.calls 1 = some other := by
    simp [later]
  have entry : filled.cache "key" = some ⟨response.cached, state.now + ttl⟩ :=
    cache_of_fill made rfl own stored fills
  have looks : sharedStep decoder later (.lookup 1) = some (later.setPhase 1 other
      (.finished .cache (.ok (cachedResult decoder response.cached)))) := by
    have fresh : cacheGet later.cache later.now other.key = some response.cached := by
      rw [cacheGet, show later.cache other.key = _ from entry]
      exact if_pos (Nat.le_add_right state.now ttl)
    simp only [sharedStep, asks, Option.bind_some, callStep]
    rw [show other.phase = .built from rfl]
    dsimp only
    rw [lookupStep, if_pos isTTL, fresh]
  exact ⟨⟨state, filled, later, _, 0, 1, step, other, [.start 1 settings "key"], reached, made,
    rfl, rfl, own, fills, .step .refl starts, rfl, asks, rfl, looks,
    by simp⟩⟩

/-- Every later hit equals the result that was stored exactly if the body is no nil
value. -/
theorem hit_eq_stored_iff (decoder : BodyDecoder Value)
    (textNotNil : ∀ bytes, decoder.isNil (decoder.text bytes) = false)
    (settings : StepSettings Value) (response : UpstreamResponse)
    (stores : Stores decoder settings response) :
    (∀ result hit, StoredThenHit decoder settings response result hit → hit = result) ↔
      NotNil decoder response := by
  obtain ⟨result, own, isStored⟩ := stores
  obtain ⟨ttl, stored⟩ := Option.isSome_iff_exists.mp isStored
  rw [← acceptsCached_iff_of_stores own stored, ← cachedResult_eq_own_iff textNotNil, own,
    Except.ok.injEq]
  constructor
  · intro equal
    obtain ⟨hits⟩ := exists_storedThenHit own stored
    exact (equal _ _ hits).symm
  · intro same made hit hits
    have isMade : made = result := by
      have equal := hits.own
      rw [own] at equal
      exact (Except.ok.inj equal).symm
    subst isMade
    rw [hits.hit_eq stored, ← same]

end Hits

/-- The text of a body of ASCII characters. -/
def asciiText (bytes : List UInt8) : List Char := bytes.map fun byte => Char.ofNat byte.toNat

/-- Bodies of ASCII characters are read as JSON values. -/
def jsonDecoder : BodyDecoder Json.Value where
  unmarshal bytes := Json.parse (asciiText bytes)
  text bytes := .string (asciiText bytes)
  isNil
    | .null => true
    | _ => false

/-- A step that caches what it gets. -/
def cachingStep : StepSettings Json.Value := ⟨"GET", some 60, false, [], 1024⟩

/-- A response with a JSON content type and this body. -/
def jsonResponse (body : String) : UpstreamResponse :=
  ⟨200, [("Content-Type", "application/json")], body.toList.map fun c => UInt8.ofNat c.toNat⟩

/-- A hit of a response whose body is `true` is the stored result. -/
theorem hit_eq_stored_of_true :
    (∀ result hit, StoredThenHit jsonDecoder cachingStep (jsonResponse "true") result hit →
      hit = result) ↔ NotNil jsonDecoder (jsonResponse "true") :=
  hit_eq_stored_iff jsonDecoder (fun _ => rfl) cachingStep (jsonResponse "true")
    ⟨_, rfl, by decide +kernel⟩

/-- What the step makes of a response whose body is `null`. -/
theorem sendStepRequest_null :
    sendStepRequest jsonDecoder cachingStep (.ok (jsonResponse "null")) =
      .ok ⟨200, (jsonResponse "null").header, .null, (jsonResponse "null").body, false⟩ := by
  have parsed : parseJSONBody jsonDecoder (jsonResponse "null").body
      ((jsonResponse "null").header.get "Content-Type") = some .null := by
    rw [parseJSONBody, if_pos (by decide +kernel)]
    rfl
  rw [sendStepRequest_eq_ok_iff, parsed]
  exact ⟨by decide +kernel, rfl⟩

/-- A response whose body is `null` is hit with another result than the one stored. -/
theorem hit_of_null :
    ∃ result hit,
      Nonempty (StoredThenHit jsonDecoder cachingStep (jsonResponse "null") result hit) ∧
      hit ≠ result := by
  obtain ⟨hits⟩ := exists_storedThenHit sendStepRequest_null
    (show fillTTL cachingStep _ = some 60 by decide +kernel)
  refine ⟨_, _, ⟨hits⟩, fun same => ?_⟩
  have bodies := congrArg StepResult.body same
  cases bodies

end Restitch.Composition
