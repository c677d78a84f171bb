import Mathlib.Logic.Function.Basic
import Restitch.Composition.StepResult
import Restitch.Semantics.Transition

/-!
# Cache and coalescing of one executor (`executor.go`, `cache.go`, `coalesce.go`)

Step executions of any number of requests share the `StepCache` and the
singleflight group of one `Executor`. An event is one access of a step execution
to that shared state, the end of an exchange with the upstream, the passing of
time or a sweep of the janitor. Steps whose request does not build touch neither
and are left out.
-/

namespace Restitch.Composition

open Restitch.Semantics Restitch.Http

/-- Identifies one execution of one step for one request. -/
abbrev CallId := Nat

structure CachedResponse where
  status : Nat
  headers : Header
  body : List UInt8

structure CacheEntry where
  response : CachedResponse
  expires : Nat

variable {Value : Type}

/-- Where a result comes from. -/
inductive Source where
  | cache
  /-- The step sent the request itself. -/
  | own
  /-- The step joined the flight of another caller. -/
  | flight (leader : CallId)

/-- Where a step execution is. -/
inductive StepPhase (Value : Type) where
  /-- The request and its key are built. -/
  | built
  /-- The cache had no answer, or was not asked. -/
  | missed
  /-- Runs a flight. -/
  | leading
  /-- Waits for the flight of another caller. -/
  | joined (leader : CallId)
  /-- Sends its own request outside any flight. -/
  | sending
  /-- The result is there; the cache fill is next. -/
  | returned (source : Source) (outcome : Except SendError (StepResult Value))
  | finished (source : Source) (outcome : Except SendError (StepResult Value))

/-- One execution of a step. -/
structure StepCall (Value : Type) where
  settings : StepSettings Value
  key : String
  phase : StepPhase Value

/-- The shared state of one executor. The 16 shards of the cache hold disjoint
keys and are one map here. -/
structure SharedState (Value : Type) where
  now : Nat
  cache : String → Option CacheEntry
  flights : String → Option CallId
  calls : CallId → Option (StepCall Value)

inductive SharedEvent (Value : Type) where
  | start (call : CallId) (settings : StepSettings Value) (key : String)
  /-- `e.cache.Get` -/
  | lookup (call : CallId)
  /-- `singleflight` joins a flight or opens one; other steps just send. -/
  | proceed (call : CallId)
  /-- The exchange of `sendStepRequest` ends. -/
  | respond (call : CallId) (exchange : Except SendError UpstreamResponse)
  /-- A caller that joined a flight gets its value. -/
  | receive (call : CallId)
  /-- `e.cache.Set`, if the result may be stored. -/
  | fill (call : CallId)
  | tick
  | sweep

/-- `StepCache.Get`. -/
def cacheGet (cache : String → Option CacheEntry) (now : Nat) (key : String) :
    Option CachedResponse :=
  match cache key with
  | some entry => if now ≤ entry.expires then some entry.response else none
  | none => none

/-- `StepCache.Set`. -/
def cacheSet (cache : String → Option CacheEntry) (now : Nat) (key : String)
    (response : CachedResponse) (ttl : Nat) : String → Option CacheEntry :=
  Function.update cache key (some ⟨response, now + ttl⟩)

/-- The result of a cache hit. -/
def cachedResult (decoder : BodyDecoder Value) (cached : CachedResponse) : StepResult Value :=
  let text := decoder.text cached.body
  let body :=
    match parseJSONBody decoder cached.body (cached.headers.get "Content-Type") with
    | some value => if decoder.isNil value then text else value
    | none => text
  ⟨cached.status, cached.headers, body, cached.body, false⟩

/-- The value of a flight, once its leader has it. -/
def flightValue (state : SharedState Value) (leader : CallId) :
    Option (Except SendError (StepResult Value)) :=
  match (state.calls leader).map StepCall.phase with
  | some (.returned _ outcome) => some outcome
  | some (.finished _ outcome) => some outcome
  | _ => none

def SharedState.setPhase (state : SharedState Value) (call : CallId) (step : StepCall Value)
    (phase : StepPhase Value) : SharedState Value :=
  { state with calls := Function.update state.calls call (some { step with phase }) }

@[simp] theorem SharedState.setPhase_calls (state : SharedState Value) (call : CallId)
    (step : StepCall Value) (phase : StepPhase Value) :
    (state.setPhase call step phase).calls =
      Function.update state.calls call (some { step with phase }) := rfl

/-- The cache check. -/
def lookupStep (decoder : BodyDecoder Value) (state : SharedState Value) (call : CallId)
    (step : StepCall Value) : SharedState Value :=
  if step.settings.cacheTTL.isSome ∧ step.settings.method = "GET" then
    match cacheGet state.cache state.now step.key with
    | some cached => state.setPhase call step (.finished .cache (.ok (cachedResult decoder cached)))
    | none => state.setPhase call step .missed
  else state.setPhase call step .missed

/-- The coalescing switch. -/
def proceedStep (state : SharedState Value) (call : CallId) (step : StepCall Value) :
    SharedState Value :=
  if step.settings.coalesce ∧ step.settings.method = "GET" then
    match state.flights step.key with
    | some leader => state.setPhase call step (.joined leader)
    | none =>
        { state.setPhase call step .leading with
          flights := Function.update state.flights step.key (some call) }
  else state.setPhase call step .sending

/-- What a caller makes of the value of a flight it joined. -/
def receiveValue (leader : CallId) :
    Except SendError (StepResult Value) → StepPhase Value
  | .error error => .returned (.flight leader) (.error error)
  | .ok result =>
      if isCacheable result.headers then .returned (.flight leader) (.ok result) else .sending

/-- Whether a result is stored, and for how long: `Status < 500`, no error rule,
not private. -/
def fillTTL (settings : StepSettings Value) (result : StepResult Value) : Option Nat :=
  if settings.method = "GET" ∧ result.status < 500 ∧ ¬ result.errorRuleMatched ∧
      isCacheable result.headers then settings.cacheTTL
  else none

/-- The cache fill. `RawBody` is never nil, since `io.ReadAll` returns no nil slice. -/
def fillCache (state : SharedState Value) (step : StepCall Value) (result : StepResult Value) :
    String → Option CacheEntry :=
  match fillTTL step.settings result with
  | some ttl =>
      cacheSet state.cache state.now step.key ⟨result.status, result.headers, result.rawBody⟩ ttl
  | none => state.cache

/-- One event of one step execution. -/
def callStep (decoder : BodyDecoder Value) (state : SharedState Value) (call : CallId)
    (step : StepCall Value) : SharedEvent Value → Option (SharedState Value)
  | .lookup _ =>
      match step.phase with
      | .built => some (lookupStep decoder state call step)
      | _ => none
  | .proceed _ =>
      match step.phase with
      | .missed => some (proceedStep state call step)
      | _ => none
  | .respond _ exchange =>
      let outcome := sendStepRequest decoder step.settings exchange
      match step.phase with
      | .leading => some
          { state.setPhase call step (.returned .own outcome) with
            flights := Function.update state.flights step.key none }
      | .sending => some (state.setPhase call step (.returned .own outcome))
      | _ => none
  | .receive _ =>
      match step.phase with
      | .joined leader =>
          (flightValue state leader).map fun value =>
            state.setPhase call step (receiveValue leader value)
      | _ => none
  | .fill _ =>
      match step.phase with
      | .returned source (.ok result) => some
          { state.setPhase call step (.finished source (.ok result)) with
            cache := fillCache state step result }
      | .returned source (.error error) =>
          some (state.setPhase call step (.finished source (.error error)))
      | _ => none
  | _ => none

/-- One event of the executor. -/
def sharedStep (decoder : BodyDecoder Value) (state : SharedState Value)
    (event : SharedEvent Value) : Option (SharedState Value) :=
  match event with
  | .start call settings key =>
      match state.calls call with
      | none => some { state with
          calls := Function.update state.calls call (some ⟨settings, key, .built⟩) }
      | some _ => none
  | .tick => some { state with now := state.now + 1 }
  | .sweep => some { state with
      cache := fun key => (state.cache key).filter fun entry => state.now ≤ entry.expires }
  | .lookup call | .proceed call | .respond call _ | .receive call | .fill call =>
      (state.calls call).bind fun step => callStep decoder state call step event

/-- An executor right after `NewExecutor`. -/
def newExecutor : SharedState Value :=
  ⟨0, fun _ => none, fun _ => none, fun _ => none⟩

/-- Any number of step executions on one executor. -/
def sharingSystem (decoder : BodyDecoder Value) :
    System (SharedState Value) (SharedEvent Value) :=
  .ofStep (· = newExecutor) (sharedStep decoder)

/-- The decoder of bodies that nobody reads. -/
def unitDecoder : BodyDecoder Unit := ⟨fun _ => none, fun _ => (), fun _ => false⟩

end Restitch.Composition
