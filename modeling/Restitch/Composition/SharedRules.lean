import Restitch.Composition.CallPhases

/-!
# Shared results and the rules of each step (`executor.go`, `step.go`)

The error rules and the size limit of a step are applied to a response before the
result is shared, and neither is part of the key. Every result that a step got from
the cache or from a flight is traced back to the response it was made from, which is
then compared with what `sendStepRequest` makes of it for the step itself.
-/

namespace Restitch.Composition

open Restitch.Http Restitch.Semantics

variable {Value : Type}

/-- A call with these settings and this key received the response. -/
def Sends (events : List (SharedEvent Value)) (state : SharedState Value) (maker : CallId)
    (settings : StepSettings Value) (key : String) (response : UpstreamResponse) : Prop :=
  (∃ made, state.calls maker = some made ∧ made.settings = settings ∧ made.key = key) ∧
    .respond maker (.ok response) ∈ events

/-- The entry that the cache has for a response. -/
def UpstreamResponse.cached (response : UpstreamResponse) : CachedResponse :=
  ⟨response.status, response.header, response.body⟩

/-- The result of the request that a step sent itself. -/
def StepPhase.sentResult : StepPhase Value → Option (StepResult Value)
  | .returned .own (.ok result) | .finished .own (.ok result) => some result
  | _ => none

/-- The step reads a cached response as it would read the response: within its limit,
matched by none of its rules, and not JSON `null`. -/
def AcceptsCached (decoder : BodyDecoder Value) (settings : StepSettings Value)
    (response : UpstreamResponse) : Prop :=
  response.body.length ≤ settings.maxResponseBytes ∧
  matchErrorRule response.status settings.errorRules = none ∧
  ∀ value, parseJSONBody decoder response.body (response.header.get "Content-Type") = some value →
    decoder.isNil value = false

/-- Two steps read a response alike: within the limit of the second, and with the same
replacement. -/
def TreatsAlike (maker settings : StepSettings Value) (response : UpstreamResponse) : Prop :=
  response.body.length ≤ settings.maxResponseBytes ∧
  matchErrorRule response.status settings.errorRules =
    matchErrorRule response.status maker.errorRules

/-- Where every shared result comes from. -/
structure Traced (decoder : BodyDecoder Value) (events : List (SharedEvent Value))
    (state : SharedState Value) : Prop where
  flights : FlightInvariant state
  /-- A hit ends a step execution at once. -/
  noReturn : ∀ call step outcome, state.calls call = some step →
    step.phase ≠ .returned .cache outcome
  joined : ∀ call step leader, state.calls call = some step → step.phase = .joined leader →
    ∃ lead, state.calls leader = some lead ∧ lead.key = step.key
  sent : ∀ call step result, state.calls call = some step → step.phase.sentResult = some result →
    ∃ response, Sends events state call step.settings step.key response ∧
      sendStepRequest decoder step.settings (.ok response) = .ok result
  flight : ∀ call step leader result, state.calls call = some step →
    step.phase.flightResult = some (leader, result) →
    ∃ settings response, Sends events state leader settings step.key response ∧
      sendStepRequest decoder settings (.ok response) = .ok result
  hit : ∀ call step result, state.calls call = some step →
    step.phase = .finished .cache (.ok result) →
    ∃ maker settings response, Sends events state maker settings step.key response ∧
      result = cachedResult decoder response.cached
  cached : ∀ key entry, state.cache key = some entry →
    ∃ maker settings response, Sends events state maker settings key response ∧
      entry.response = response.cached

section Traced

variable {decoder : BodyDecoder Value} {state next : SharedState Value}
  {event : SharedEvent Value} {events : List (SharedEvent Value)} {call : CallId}
  {step : StepCall Value} {phase : StepPhase Value} {result : StepResult Value}

/-- The result of `sendStepRequest` keeps what the upstream sent. -/
theorem sendStepRequest_kept {settings : StepSettings Value} {response : UpstreamResponse}
    (sent : sendStepRequest decoder settings (.ok response) = .ok result) :
    (⟨result.status, result.headers, result.rawBody⟩ : CachedResponse) = response.cached := by
  simp only [sendStepRequest] at sent
  split at sent
  · cases sent
  · split at sent <;> cases sent <;> rfl

/-- What a call received, it has received. -/
theorem Sends.move {maker : CallId} {settings : StepSettings Value} {key : String}
    {response : UpstreamResponse} (move : SharedMove decoder state next event)
    (sends : Sends events state maker settings key response) :
    Sends (events ++ [event]) next maker settings key response := by
  obtain ⟨⟨made, present, isSettings, isKey⟩, received⟩ := sends
  refine ⟨?_, List.mem_append_left _ received⟩
  rcases move.after present with kept | ⟨phase, moved, -⟩
  · exact ⟨made, kept, isSettings, isKey⟩
  · exact ⟨_, moved, isSettings, isKey⟩

/-- A step execution with a result of its own exchange got it now or had it. -/
theorem Moves.sentResult (moves : Moves decoder state call step event phase)
    (sent : phase.sentResult = some result) :
    step.phase.sentResult = some result ∨
      ∃ response, event = .respond call (.ok response) ∧
        sendStepRequest decoder step.settings (.ok response) = .ok result := by
  cases moves with
  | hit | miss | join | lead | send | receive | refuse => cases sent
  | exchange outcome =>
      right
      cases made : sendStepRequest decoder step.settings outcome with
      | error error =>
          rw [made] at sent
          cases sent
      | ok value =>
          rw [made] at sent
          cases sent
          cases outcome with
          | error error => cases made
          | ok response => exact ⟨response, rfl, made⟩
  | @finish source outcome at_ =>
      left
      rw [at_]
      cases source <;> cases outcome <;> exact sent

/-- What a call sent itself stays traced. -/
theorem Traced.sent_move (traced : Traced decoder events state)
    (move : SharedMove decoder state next event) (present : next.calls call = some step)
    (sent : step.phase.sentResult = some result) :
    ∃ response, Sends (events ++ [event]) next call step.settings step.key response ∧
      sendStepRequest decoder step.settings (.ok response) = .ok result := by
  rcases move.before present with old | ⟨settings, key, -, rfl⟩ | ⟨prior, found, same, moves⟩
  · obtain ⟨response, sends, made⟩ := traced.sent call step result old sent
    exact ⟨response, sends.move move, made⟩
  · cases sent
  · rw [same]
    rcases moves.sentResult sent with old | ⟨response, rfl, made⟩
    · obtain ⟨response, sends, made⟩ := traced.sent call prior result found old
      exact ⟨response, sends.move move, made⟩
    · refine ⟨response, ⟨⟨step, present, ?_, ?_⟩, ?_⟩, made⟩
      · rw [same]
      · rw [same]
      · exact List.mem_append_right _ (List.mem_singleton_self _)

/-- What a flight returns stays traced. -/
theorem Traced.flight_move (traced : Traced decoder events state)
    (move : SharedMove decoder state next event) {leader : CallId}
    (present : next.calls call = some step)
    (flight : step.phase.flightResult = some (leader, result)) :
    ∃ settings response, Sends (events ++ [event]) next leader settings step.key response ∧
      sendStepRequest decoder settings (.ok response) = .ok result := by
  rcases move.before present with old | ⟨settings, key, -, rfl⟩ | ⟨prior, found, same, moves⟩
  · obtain ⟨settings, response, sends, made⟩ := traced.flight call step leader result old flight
    exact ⟨settings, response, sends.move move, made⟩
  · cases flight
  · rw [same]
    generalize step.phase = phase at moves flight
    cases moves with
    | hit | miss | join | lead | send | exchange | refuse => cases flight
    | @finish source outcome at_ =>
        have old : prior.phase.flightResult = some (leader, result) := by
          rw [at_]
          cases source <;> cases outcome <;> exact flight
        obtain ⟨settings, response, sends, made⟩ :=
          traced.flight call prior leader result found old
        exact ⟨settings, response, sends.move move, made⟩
    | @receive other value at_ arrived accepted =>
        cases value with
        | error error => cases flight
        | ok value =>
            cases flight
            -- The leader has the value as the result of its own exchange, under the same key.
            obtain ⟨lead, isLead, phase⟩ := traced.flights.joined call prior leader found at_
            obtain ⟨other, isOther, sameKey⟩ := traced.joined call prior leader found at_
            rw [isLead] at isOther
            cases isOther
            have sent : lead.phase.sentResult = some result := by
              rw [flightValue, isLead] at arrived
              rcases phase with phase | ⟨outcome, phase | phase⟩ <;>
                simp only [Option.map_some, phase] at arrived ⊢ <;> cases arrived <;> rfl
            obtain ⟨response, sends, made⟩ := traced.sent leader lead result isLead sent
            rw [sameKey] at sends
            exact ⟨lead.settings, response, sends.move move, made⟩

/-- What a hit returns stays traced. -/
theorem Traced.hit_move (traced : Traced decoder events state)
    (move : SharedMove decoder state next event) (present : next.calls call = some step)
    (hit : step.phase = .finished .cache (.ok result)) :
    ∃ maker settings response, Sends (events ++ [event]) next maker settings step.key response ∧
      result = cachedResult decoder response.cached := by
  rcases move.before present with old | ⟨settings, key, -, rfl⟩ | ⟨prior, found, same, moves⟩
  · obtain ⟨maker, settings, response, sends, made⟩ := traced.hit call step result old hit
    exact ⟨maker, settings, response, sends.move move, made⟩
  · cases hit
  · rw [same]
    rw [hit] at moves
    generalize target : StepPhase.finished .cache (.ok result) = phase at moves
    cases moves with
    | miss | join | lead | send | exchange | receive | refuse => cases target
    | finish at_ =>
        cases target
        exact absurd at_ (traced.noReturn call prior _ found)
    | hit at_ asked isCached =>
        cases target
        unfold cacheGet at isCached
        split at isCached
        · rename_i entry isEntry
          split at isCached
          · cases isCached
            obtain ⟨maker, settings, response, sends, isResponse⟩ :=
              traced.cached prior.key entry isEntry
            exact ⟨maker, settings, response, sends.move move, by rw [isResponse]⟩
          · cases isCached
        · cases isCached

/-- What is cached stays traced. -/
theorem Traced.cached_move (traced : Traced decoder events state)
    (move : SharedMove decoder state next event) {key : String} {entry : CacheEntry}
    (found : next.cache key = some entry) :
    ∃ maker settings response, Sends (events ++ [event]) next maker settings key response ∧
      entry.response = response.cached := by
  have old (kept : state.cache key = some entry) :
      ∃ maker settings response, Sends (events ++ [event]) next maker settings key response ∧
        entry.response = response.cached := by
    obtain ⟨maker, settings, response, sends, made⟩ := traced.cached key entry kept
    exact ⟨maker, settings, response, sends.move move, made⟩
  cases move with
  | quiet _ _ _ _ cache => exact old (cache key entry found)
  | start _ _ _ _ cache => exact old (cache ▸ found)
  | @move _ call step phase present moves calls flights now cache =>
      have move : SharedMove decoder state next event := .move present moves calls flights now cache
      rw [cache] at found
      cases moves with
      | miss | join | lead | send | exchange | receive | refuse => exact old found
      | hit at_ =>
          simp only [cacheAfter, at_] at found
          exact old found
      | @finish source outcome at_ =>
          cases outcome with
          | error error => exact old found
          | ok result =>
              simp only [cacheAfter, at_, fillCache] at found
              cases stored : fillTTL step.settings result with
              | none =>
                  rw [stored] at found
                  exact old found
              | some ttl =>
                  simp only [stored, cacheSet] at found
                  by_cases same : key = step.key
                  · subst same
                    rw [Function.update_self] at found
                    cases found
                    cases source with
                    | cache => exact absurd at_ (traced.noReturn call step _ present)
                    | own =>
                        obtain ⟨response, sends, made⟩ :=
                          traced.sent call step result present (by rw [at_]; rfl)
                        exact ⟨call, step.settings, response, sends.move move,
                          sendStepRequest_kept made⟩
                    | flight leader =>
                        obtain ⟨settings, response, sends, made⟩ :=
                          traced.flight call step leader result present (by rw [at_]; rfl)
                        exact ⟨leader, settings, response, sends.move move,
                          sendStepRequest_kept made⟩
                  · rw [Function.update_of_ne same] at found
                    exact old found

/-- A call that joined has the key of its leader. -/
theorem Traced.joined_move (traced : Traced decoder events state)
    (move : SharedMove decoder state next event) {leader : CallId}
    (present : next.calls call = some step) (at_ : step.phase = .joined leader) :
    ∃ lead, next.calls leader = some lead ∧ lead.key = step.key := by
  have kept {lead : StepCall Value} (found : state.calls leader = some lead) :
      ∃ later, next.calls leader = some later ∧ later.key = lead.key := by
    rcases move.after found with same | ⟨phase, moved, -⟩
    · exact ⟨lead, same, rfl⟩
    · exact ⟨_, moved, rfl⟩
  rcases move.before present with old | ⟨settings, key, -, rfl⟩ | ⟨prior, found, same, moves⟩
  · obtain ⟨lead, isLead, sameKey⟩ := traced.joined call step leader old at_
    rw [← sameKey]
    exact kept isLead
  · cases at_
  · rw [same]
    rw [at_] at moves
    generalize target : StepPhase.joined leader = phase at moves
    cases moves with
    | hit | miss | lead | send | exchange | receive | refuse | finish => cases target
    | join _ _ flight =>
        cases target
        obtain ⟨lead, isLead, sameKey, -⟩ := traced.flights.open_ _ _ flight
        rw [← sameKey]
        exact kept isLead

/-- A hit is no return of a flight. -/
theorem Traced.noReturn_move (traced : Traced decoder events state)
    (move : SharedMove decoder state next event) (present : next.calls call = some step)
    (outcome : Except SendError (StepResult Value)) : step.phase ≠ .returned .cache outcome := by
  intro at_
  rcases move.before present with old | ⟨settings, key, -, rfl⟩ | ⟨prior, found, same, moves⟩
  · exact traced.noReturn call step outcome old at_
  · cases at_
  · rw [at_] at moves
    cases moves

/-- Every move keeps the trace. -/
theorem Traced.move (traced : Traced decoder events state)
    (move : SharedMove decoder state next event) : Traced decoder (events ++ [event]) next where
  flights := traced.flights.move move
  noReturn _ _ outcome present := traced.noReturn_move move present outcome
  joined _ _ _ present at_ := traced.joined_move move present at_
  sent _ _ _ present sent := traced.sent_move move present sent
  flight _ _ _ _ present flight := traced.flight_move move present flight
  hit _ _ _ present hit := traced.hit_move move present hit
  cached _ _ found := traced.cached_move move found

/-- Every run traces its shared results. -/
theorem traced_of_steps (run : (sharingSystem decoder).Steps newExecutor events state) :
    Traced decoder events state := by
  generalize start : (newExecutor : SharedState Value) = initial at run
  induction run with
  | refl =>
      subst start
      refine ⟨flightInvariant_newExecutor, ?_, ?_, ?_, ?_, ?_, ?_⟩
      · intro call step outcome present
        cases present
      · intro call step leader present
        cases present
      · intro call step result present
        cases present
      · intro call step leader result present
        cases present
      · intro call step result present
        cases present
      · intro key entry found
        cases found
  | step _ transition ih =>
      subst start
      exact ih.move (sharedStep_move transition)

/-- What a step makes of a response that it sent for itself. -/
theorem sendStepRequest_eq_ok_iff {settings : StepSettings Value} {response : UpstreamResponse} :
    sendStepRequest decoder settings (.ok response) = .ok result ↔
      response.body.length ≤ settings.maxResponseBytes ∧
      result = ⟨response.status, response.header,
        (matchErrorRule response.status settings.errorRules).getD
          ((parseJSONBody decoder response.body (response.header.get "Content-Type")).getD
            (decoder.text response.body)),
        response.body, (matchErrorRule response.status settings.errorRules).isSome⟩ := by
  simp only [sendStepRequest]
  split
  · rename_i tooLarge
    exact iff_of_false nofun fun both => absurd tooLarge (Nat.not_lt_of_le both.1)
  · rename_i fits
    have bound : response.body.length ≤ settings.maxResponseBytes := Nat.le_of_not_lt fits
    cases matchErrorRule response.status settings.errorRules with
    | none => simp [bound, eq_comm]
    | some replacement => simp [bound, eq_comm]

/-- A hit is what the step would have made of the response itself exactly when the step
accepts it. -/
theorem cachedResult_eq_own_iff (textNotNil : ∀ bytes, decoder.isNil (decoder.text bytes) = false)
    {settings : StepSettings Value} {response : UpstreamResponse} :
    sendStepRequest decoder settings (.ok response) =
        .ok (cachedResult decoder response.cached) ↔
      AcceptsCached decoder settings response := by
  rw [sendStepRequest_eq_ok_iff, AcceptsCached]
  refine and_congr_right fun _ => ?_
  cases matchErrorRule response.status settings.errorRules with
  | some replacement => simp [cachedResult]
  | none =>
      cases read : parseJSONBody decoder response.body (response.header.get "Content-Type") with
      | none => simp [cachedResult, UpstreamResponse.cached, read]
      | some value =>
          have nil_ : decoder.isNil value = true → decoder.text response.body ≠ value := by
            rintro isNil rfl
            rw [textNotNil] at isNil
            cases isNil
          cases isNil : decoder.isNil value with
          | false => simp [cachedResult, UpstreamResponse.cached, read, isNil]
          | true => simp [cachedResult, UpstreamResponse.cached, read, isNil, nil_ isNil]

/-- The result of a flight is what a joined step would have made of the response itself
exactly when the two steps read it alike. -/
theorem flightResult_eq_own_iff {maker settings : StepSettings Value}
    {response : UpstreamResponse}
    (made : sendStepRequest decoder maker (.ok response) = .ok result) :
    sendStepRequest decoder settings (.ok response) = .ok result ↔
      TreatsAlike maker settings response := by
  obtain ⟨-, rfl⟩ := sendStepRequest_eq_ok_iff.mp made
  rw [sendStepRequest_eq_ok_iff, TreatsAlike]
  refine and_congr_right fun _ => ?_
  cases matchErrorRule response.status settings.errorRules with
  | none => cases matchErrorRule response.status maker.errorRules <;> simp
  | some replacement =>
      cases matchErrorRule response.status maker.errorRules <;> simp [eq_comm]

end Traced

/-- Every result that a step got from the cache or from a flight comes from a response
that a call with the same key received, and equals what the step's own `sendStepRequest`
makes of that response exactly when the step accepts the cached response, or reads it as
the leader of the flight does. -/
theorem shared_result_respects_rules_iff (decoder : BodyDecoder Value)
    (textNotNil : ∀ bytes, decoder.isNil (decoder.text bytes) = false)
    (events : List (SharedEvent Value)) (state : SharedState Value)
    (run : (sharingSystem decoder).Steps newExecutor events state) (call : CallId)
    (step : StepCall Value) (present : state.calls call = some step) :
    (∀ result, step.phase = .finished .cache (.ok result) →
      ∃ maker settings response, Sends events state maker settings step.key response ∧
        result = cachedResult decoder response.cached ∧
        (sendStepRequest decoder step.settings (.ok response) = .ok result ↔
          AcceptsCached decoder step.settings response)) ∧
    (∀ leader result, step.phase.flightResult = some (leader, result) →
      ∃ settings response, Sends events state leader settings step.key response ∧
        sendStepRequest decoder settings (.ok response) = .ok result ∧
        (sendStepRequest decoder step.settings (.ok response) = .ok result ↔
          TreatsAlike settings step.settings response)) := by
  have traced := traced_of_steps run
  constructor
  · intro result hit
    obtain ⟨maker, settings, response, sends, rfl⟩ := traced.hit call step result present hit
    exact ⟨maker, settings, response, sends, rfl, cachedResult_eq_own_iff textNotNil⟩
  · intro leader result flight
    obtain ⟨settings, response, sends, made⟩ :=
      traced.flight call step leader result present flight
    exact ⟨settings, response, sends, made, flightResult_eq_own_iff made⟩

/-- Bodies are read as text. -/
def textDecoder : BodyDecoder String :=
  ⟨fun _ => none, fun bytes => .ofList (bytes.map fun byte => Char.ofNat byte.toNat), fun _ => false⟩

/-- A step without error rules, and one that replaces the body of a 404. -/
def plainStep : StepSettings String := ⟨"GET", some 60, true, [], 1024⟩

def replacingStep : StepSettings String := ⟨"GET", some 60, true, [⟨[404], "none"⟩], 1024⟩

def notFound : UpstreamResponse := ⟨404, [], []⟩

/-- The first step stores its response, and the second asks the cache. -/
def answeredFromCache (settings : StepSettings String) : List (SharedEvent String) :=
  [.start 0 plainStep "key", .lookup 0, .proceed 0, .respond 0 (.ok notFound), .fill 0,
   .start 1 settings "key", .lookup 1]

/-- The first step runs a flight, and the second joins it. -/
def answeredByFlight (settings : StepSettings String) : List (SharedEvent String) :=
  [.start 0 plainStep "key", .start 1 settings "key", .lookup 0, .lookup 1, .proceed 0, .proceed 1,
   .respond 0 (.ok notFound), .receive 1]

/-- The settings of call 1, and whether the result that it was answered with is the body
of a rule. -/
def answerOfOne (answer : StepPhase String → Option (StepResult String))
    (state : SharedState String) : Option (StepSettings String × Bool) :=
  (state.calls 1).bind fun step =>
    (answer step.phase).map fun result => (step.settings, result.errorRuleMatched)

/-- The result of a cache hit. -/
def StepPhase.hitResult : StepPhase Value → Option (StepResult Value)
  | .finished .cache (.ok result) => some result
  | _ => none

/-- A call with the result of a hit has finished with it. -/
theorem StepPhase.eq_of_hitResult {phase : StepPhase Value} {result : StepResult Value}
    (hit : phase.hitResult = some result) : phase = .finished .cache (.ok result) := by
  unfold StepPhase.hitResult at hit
  split at hit
  · cases hit
    rfl
  · cases hit

/-- Replay events up to an answer of call 1. -/
theorem answerOfOne_run (answer : StepPhase String → Option (StepResult String))
    (events : List (SharedEvent String)) (settings : StepSettings String) (matched : Bool)
    (ends : (System.replay (sharedStep textDecoder) newExecutor events).bind (answerOfOne answer) =
      some (settings, matched)) :
    ∃ state step result, (sharingSystem textDecoder).Steps newExecutor events state ∧
      state.calls 1 = some step ∧ answer step.phase = some result ∧ step.settings = settings ∧
      result.errorRuleMatched = matched := by
  obtain ⟨final, replayed, shown⟩ := Option.bind_eq_some_iff.mp ends
  obtain ⟨step, present, shown⟩ := Option.bind_eq_some_iff.mp shown
  obtain ⟨result, answered, same⟩ := Option.map_eq_some_iff.mp shown
  cases same
  exact ⟨final, step, result, System.steps_of_replay events .refl replayed, present, answered,
    rfl, rfl⟩

/-- A step without rules is answered with the response that a step of the same kind
stored. -/
theorem shared_result_respects_rules_of_same :
    ∃ events state step result, (sharingSystem textDecoder).Steps newExecutor events state ∧
      state.calls 1 = some step ∧ step.phase = .finished .cache (.ok result) ∧
      ∃ maker settings response, Sends events state maker settings step.key response ∧
        result = cachedResult textDecoder response.cached ∧
        (sendStepRequest textDecoder step.settings (.ok response) = .ok result ↔
          AcceptsCached textDecoder step.settings response) := by
  obtain ⟨state, step, result, run, present, answered, -⟩ :=
    answerOfOne_run StepPhase.hitResult (answeredFromCache plainStep) plainStep false
      (by decide +kernel)
  have hit := StepPhase.eq_of_hitResult answered
  exact ⟨_, state, step, result, run, present, hit,
    (shared_result_respects_rules_iff textDecoder (fun _ => rfl) _ state run 1 step present).1
      result hit⟩

/-- What the step that replaces the body of a 404 makes of one is the body of its rule. -/
theorem replacingStep_matches {result : StepResult String}
    (own : sendStepRequest textDecoder replacingStep (.ok notFound) = .ok result) :
    result.errorRuleMatched = true := by
  obtain ⟨-, rfl⟩ := sendStepRequest_eq_ok_iff.mp own
  rfl

/-- The step that replaces the body of a 404 gets the 404 itself from the cache, and from
the flight of a step without rules. -/
theorem shared_result_breaks_rules :
    (∃ events state step result maker settings response,
      (sharingSystem textDecoder).Steps newExecutor events state ∧ state.calls 1 = some step ∧
      step.phase = .finished .cache (.ok result) ∧
      Sends events state maker settings step.key response ∧
      result = cachedResult textDecoder response.cached ∧
      sendStepRequest textDecoder step.settings (.ok response) ≠ .ok result) ∧
    (∃ events state step leader result settings response,
      (sharingSystem textDecoder).Steps newExecutor events state ∧ state.calls 1 = some step ∧
      step.phase.flightResult = some (leader, result) ∧
      Sends events state leader settings step.key response ∧
      sendStepRequest textDecoder settings (.ok response) = .ok result ∧
      sendStepRequest textDecoder step.settings (.ok response) ≠ .ok result) := by
  have own {settings : StepSettings String} {response : UpstreamResponse}
      {result : StepResult String} (isSettings : settings = replacingStep)
      (received : response = notFound) (unmatched : result.errorRuleMatched = false) :
      sendStepRequest textDecoder settings (.ok response) ≠ .ok result := by
    subst isSettings received
    intro own
    rw [replacingStep_matches own] at unmatched
    cases unmatched
  constructor
  · obtain ⟨state, step, result, run, present, answered, isSettings, unmatched⟩ :=
      answerOfOne_run StepPhase.hitResult (answeredFromCache replacingStep) replacingStep false
        (by decide +kernel)
    have hit := StepPhase.eq_of_hitResult answered
    obtain ⟨maker, settings, response, sends, made⟩ :=
      (traced_of_steps run).hit 1 step result present hit
    have received : maker = 0 ∧ response = notFound := by
      simpa [answeredFromCache] using sends.2
    exact ⟨_, state, step, result, maker, settings, response, run, present, hit, sends, made,
      own isSettings received.2 unmatched⟩
  · obtain ⟨state, step, result, run, present, answered, isSettings, unmatched⟩ :=
      answerOfOne_run (fun phase => phase.flightResult.map Prod.snd)
        (answeredByFlight replacingStep) replacingStep false (by decide +kernel)
    obtain ⟨⟨leader, value⟩, flight, rfl⟩ := Option.map_eq_some_iff.mp answered
    obtain ⟨settings, response, sends, made⟩ :=
      (traced_of_steps run).flight 1 step leader value present flight
    have received : leader = 0 ∧ response = notFound := by
      simpa [answeredByFlight] using sends.2
    exact ⟨_, state, step, leader, value, settings, response, run, present, flight, sends, made,
      own isSettings received.2 unmatched⟩

end Restitch.Composition
